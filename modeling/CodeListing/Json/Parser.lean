import CodeListing.Json.Scalar

/-!
# Reading JSON

A JSON text is read by recursive descent.  Every reader returns the characters that follow what it
read, fewer than there were, and nesting is bounded.  The members of an object are put in the order
of their keys, and of several members with one key the last one counts.
-/

set_option autoImplicit false

namespace CodeListing.Json

/-- A text may nest arrays and objects one level less than this. -/
def depthLimit : Nat := 128

/-- Adds a member in the order of the keys, in place of one with the same key. -/
def insertMember (key : String) (item : Document) :
    List (String × Document) → List (String × Document)
  | [] => [(key, item)]
  | (k, v) :: rest =>
    if key < k then (key, item) :: (k, v) :: rest
    else if key == k then (key, item) :: rest
    else (k, v) :: insertMember key item rest

/-- What stands at the start of the next element of an array, if there is one; `first` says that
none was read yet. -/
def nextItem? (first : Bool) (text : List Char) :
    Except ParseError (Option (Tail text) × Rest text) :=
  match next? text with
  | none => .error .endInList
  | some (c, rest) =>
    if c == ']' then .ok (none, rest)
    else if first then .ok (some (.whole text), rest)
    else if c == ',' then
      match next? rest.1 with
      | none => .error .endInValue
      | some (d, _) =>
        if d == ']' then .error .trailingComma
        else .ok (some rest.toTail, rest)
    else .error .expectedCommaOrListEnd

/-- What stands behind the opening quote of the next key of an object, if there is one; `first` says
that none was read yet. -/
def nextKey? (first : Bool) (text : List Char) :
    Except ParseError (Option (Rest text) × Rest text) :=
  match next? text with
  | none => .error .endInObject
  | some (c, rest) =>
    if c == '\x7d' then .ok (none, rest)
    else if first then
      if c == '"' then .ok (some rest, rest) else .error .keyNotString
    else if c == ',' then
      match next? rest.1 with
      | none => .error .endInValue
      | some (d, behind) =>
        if d == '"' then .ok (some (rest.trans behind), rest)
        else if d == '\x7d' then .error .trailingComma
        else .error .keyNotString
    else .error .expectedCommaOrObjectEnd

mutual

/-- One value, with white space in front of it; `depth` bounds the nesting. -/
def value (depth : Nat) (text : List Char) : Except ParseError (Document × Rest text) :=
  match next? text with
  | none => .error .endInValue
  | some (c, rest) =>
    have := rest.2
    if c == '[' then
      match depth with
      | 0 | 1 => .error .tooDeep
      | inner + 2 =>
        match elements (inner + 1) true [] rest.1 with
        | .error e => .error e
        | .ok (items, r) => .ok (.array items, rest.trans r)
    else if c == '\x7b' then
      match depth with
      | 0 | 1 => .error .tooDeep
      | inner + 2 =>
        match members (inner + 1) true [] rest.1 with
        | .error e => .error e
        | .ok (fields, r) => .ok (.object fields, rest.trans r)
    else
      (scalar c rest.1).map fun (document, r) =>
        (document, rest.transTail r)
termination_by 2 * text.length
decreasing_by all_goals omega

/-- The elements of an array up to its closing bracket, behind those already read in reverse;
`first` says that none was read yet. -/
def elements (depth : Nat) (first : Bool) (done : List Document) (text : List Char) :
    Except ParseError (List Document × Rest text) :=
  match nextItem? first text with
  | .error e => .error e
  | .ok (none, rest) => .ok (done.reverse, rest)
  | .ok (some start, _) =>
    have := start.2
    match value depth start.1 with
    | .error e => .error e
    | .ok (item, r) =>
      have := r.2
      match elements depth false (item :: done) r.1 with
      | .error e => .error e
      | .ok (items, r') => .ok (items, start.transRest (r.trans r'))
termination_by 2 * text.length + 1
decreasing_by all_goals omega

/-- The members of an object up to its closing brace, together with those already read; `first` says
that none was read yet. -/
def members (depth : Nat) (first : Bool) (done : List (String × Document)) (text : List Char) :
    Except ParseError (List (String × Document) × Rest text) :=
  match nextKey? first text with
  | .error e => .error e
  | .ok (none, rest) => .ok (done, rest)
  | .ok (some quoted, _) =>
    have := quoted.2
    match string quoted.1 with
    | .error e => .error e
    | .ok (key, behindKey) =>
      have := behindKey.2
      match colon behindKey.1 with
      | .error e => .error e
      | .ok start =>
        have := start.2
        match value depth start.1 with
        | .error e => .error e
        | .ok (item, r) =>
          have := r.2
          match members depth false (insertMember key item done) r.1 with
          | .error e => .error e
          | .ok (fields, r') =>
            .ok (fields, quoted.trans (behindKey.trans (start.trans (r.trans r'))))
termination_by 2 * text.length + 1
decreasing_by all_goals omega

end

/-- The document of a JSON text, which holds one value and white space around it. -/
def parse (text : String) : Except ParseError Document :=
  match value depthLimit text.toList with
  | .error e => .error e
  | .ok (document, rest) =>
    if (skipGap rest.1).isEmpty then .ok document else .error .trailingCharacters

end CodeListing.Json
