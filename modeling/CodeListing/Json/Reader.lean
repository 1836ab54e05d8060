import CodeListing.Document.Decoder
import CodeListing.Json.Parser
import CodeListing.Json.Skip

/-!
# Reading JSON as a value of a type

A JSON text is read under the shape that its document should have, from left to right.  The first
thing that is wrong is reported, whether the text is malformed there or does not fit the shape; what
stands behind it is not looked at.  Members that no field asks for are passed over.
-/

set_option autoImplicit false

namespace CodeListing.Json

open CodeListing.Document (DecodeError Decoder Layout Shape)

/-- The first thing that is wrong with a JSON text for a value of a type. -/
inductive ReadError where
  /-- The text is no JSON. -/
  | malformed (error : ParseError)
  /-- The text is JSON so far, but for no value of the type. -/
  | unfit (error : DecodeError)
  deriving DecidableEq, Repr

/-- The text of the error. -/
def ReadError.message : ReadError → String
  | .malformed error => error.message
  | .unfit error => error.message

/-- A result of reading the text itself. -/
def wellFormed {α : Type} : Except ParseError α → Except ReadError α
  | .ok a => .ok a
  | .error e => .error (.malformed e)

/-- A document that fits a shape. -/
def fitting (shape : Shape) (document : Document) : Except ReadError Document :=
  match shape.check false document with
  | .ok _ => .ok document
  | .error e => .error (.unfit e)

/-- The error for a value of another kind than the wanted one, which starts with the given
character: scalars are read first, lists and objects are not. -/
def wrongKind {α : Type} (wanted : String) (c : Char) (rest : List Char) :
    Except ReadError α :=
  let unfit (found : Document) : Except ReadError α :=
    .error (.unfit (.wrongKind found.describe wanted))
  if c == '[' then unfit (.array [])
  else if c == '\x7b' then unfit (.object [])
  else
    match scalar c rest with
    | .ok (found, _) => unfit found
    | .error e => .error (.malformed e)

/-- The name of a variant, behind its opening quote. -/
def variantName (names : List String) (text : List Char) :
    Except ReadError (String × Rest text) := do
  let (name, rest) ← wellFormed (string text)
  match Document.named? (names.map fun n => (n, n)) name with
  | .ok found => .ok (found, rest)
  | .error e => .error (.unfit e)

/-- The closing brace behind the content of a variant. -/
def variantEnd (text : List Char) : Except ReadError (Rest text) :=
  match next? text with
  | none => .error (.malformed .endInObject)
  | some (c, rest) => if c == '\x7d' then .ok rest else .error (.malformed .expectedValue)

/-- The content of a variant, which is null, and the closing brace behind it. -/
def variantContent (text : List Char) : Except ReadError (Rest text) :=
  match next? text with
  | none => .error (.malformed .endInValue)
  | some (c, rest) =>
    if c == 'n' then
      match word ['u', 'l', 'l'] rest.1 with
      | .error e => .error (.malformed e)
      | .ok behind =>
        (variantEnd behind.1).map fun r => rest.trans (behind.transRest r)
    else wrongKind "unit" c rest.1

/-- The variant that an object with one member names, behind its opening brace. -/
def variantObject (names : List String) (text : List Char) :
    Except ReadError (String × Rest text) :=
  match next? text with
  | none => .error (.malformed .endInValue)
  | some (c, rest) =>
    if c == '"' then do
      let (name, behindName) ← variantName names rest.1
      let start ← wellFormed (colon behindName.1)
      let r ← variantContent start.1
      return (name, rest.trans (behindName.trans (start.trans r)))
    else wrongKind "variant identifier" c rest.1

/-- The closing bracket behind the last field of a record that is written as a list. -/
def recordEnd (text : List Char) : Except ParseError (Rest text) :=
  match next? text with
  | none => .error .endInList
  | some (c, rest) =>
    if c == ']' then .ok rest
    else if c == ',' then
      .error (if (skipGap rest.1).head? == some ']' then .trailingComma else .trailingCharacters)
    else .error .trailingCharacters

mutual

/-- One value of the given shape, with white space in front of it. -/
def valueOf (shape : Shape) (text : List Char) : Except ReadError (Document × Rest text) :=
  match next? text with
  | none => .error (.malformed .endInValue)
  | some (c, rest) =>
    have := rest.2
    let other : Except ReadError (Document × Rest text) :=
      if c == '[' then (fitting shape (.array [])).map fun document => (document, rest)
      else if c == '\x7b' then (fitting shape (.object [])).map fun document => (document, rest)
      else
        match scalar c rest.1 with
        | .error e => .error (.malformed e)
        | .ok (document, r) =>
          (fitting shape document).map fun document =>
            (document, rest.transTail r)
    match shape.required with
    | .list item =>
      if c == '[' then
        match elementsOf item true [] rest.1 with
        | .error e => .error e
        | .ok (items, r) => .ok (.array items, rest.trans r)
      else other
    | .record name layout =>
      if c == '\x7b' then
        match membersOf layout true [] rest.1 with
        | .error e => .error e
        | .ok (fields, r) => .ok (.object fields, rest.trans r)
      else if c == '[' then
        match valuesOf (Document.tooShort name layout) layout true [] rest.1 with
        | .error e => .error e
        | .ok (values, r) => .ok (.array values, rest.trans r)
      else other
    | .variant names =>
      if c == '"' then
        (variantName names rest.1).map fun (name, r) =>
          (.string name, rest.trans r)
      else if c == '\x7b' then
        (variantObject names rest.1).map fun (name, r) =>
          (.string name, rest.trans r)
      else if c == 'n' && shape.isOptional then other
      else .error (.malformed .expectedValue)
    | .custom _ =>
      match value depthLimit text with
      | .error e => .error (.malformed e)
      | .ok (document, r) => (fitting shape document).map fun document => (document, r)
    | _ => other
termination_by 2 * text.length
decreasing_by all_goals omega

/-- The elements of a list up to its closing bracket, behind those already read in reverse; `first`
says that none was read yet. -/
def elementsOf (item : Shape) (first : Bool) (done : List Document) (text : List Char) :
    Except ReadError (List Document × Rest text) :=
  match nextItem? first text with
  | .error e => .error (.malformed e)
  | .ok (none, rest) => .ok (done.reverse, rest)
  | .ok (some start, _) =>
    have := start.2
    match valueOf item start.1 with
    | .error e => .error e
    | .ok (document, r) =>
      have := r.2
      match elementsOf item false (document :: done) r.1 with
      | .error e => .error e
      | .ok (items, r') => .ok (items, start.transRest (r.trans r'))
termination_by 2 * text.length + 1
decreasing_by all_goals omega

/-- The members of a record up to its closing brace, behind those already read in reverse; `first`
says that none was met yet. -/
def membersOf (layout : Layout) (first : Bool) (done : List (String × Document))
    (text : List Char) : Except ReadError (List (String × Document) × Rest text) :=
  match nextKey? first text with
  | .error e => .error (.malformed e)
  | .ok (none, rest) =>
    match layout.missing? (done.map Prod.fst) with
    | some field => .error (.unfit (.missingField field))
    | none => .ok (done.reverse, rest)
  | .ok (some quoted, _) =>
    have := quoted.2
    match string quoted.1 with
    | .error e => .error (.malformed e)
    | .ok (key, behindKey) =>
      have := behindKey.2
      match layout.shape? key with
      | none =>
        match colon behindKey.1 with
        | .error e => .error (.malformed e)
        | .ok start =>
          have := start.2
          match skipValue start.1 with
          | .error e => .error (.malformed e)
          | .ok r =>
            have := r.2
            match membersOf layout false done r.1 with
            | .error e => .error e
            | .ok (fields, r') =>
              .ok (fields, quoted.trans (behindKey.trans (start.trans (r.trans r'))))
      | some shape =>
        if (done.map Prod.fst).contains key then .error (.unfit (.duplicateField key))
        else
          match colon behindKey.1 with
          | .error e => .error (.malformed e)
          | .ok start =>
            have := start.2
            match valueOf shape start.1 with
            | .error e => .error e
            | .ok (document, r) =>
              have := r.2
              match membersOf layout false ((key, document) :: done) r.1 with
              | .error e => .error e
              | .ok (fields, r') =>
                .ok (fields, quoted.trans (behindKey.trans (start.trans (r.trans r'))))
termination_by 2 * text.length + 1
decreasing_by all_goals omega

/-- The fields of a record that is written as a list, up to its closing bracket, behind those
already read in reverse; `short` is the error for a list that ends at a position, and `first` says
that no field was read yet. -/
def valuesOf (short : Nat → DecodeError) (layout : Layout) (first : Bool) (done : List Document)
    (text : List Char) : Except ReadError (List Document × Rest text) :=
  match layout with
  | .nil =>
    match recordEnd text with
    | .error e => .error (.malformed e)
    | .ok rest => .ok (done.reverse, rest)
  | .cons _ _ shape others =>
    match nextItem? first text with
    | .error e => .error (.malformed e)
    | .ok (none, rest) =>
      match layout.checkValues false short done.length [] with
      | .error e => .error (.unfit e)
      | .ok _ => .ok (done.reverse, rest)
    | .ok (some start, _) =>
      have := start.2
      match valueOf shape start.1 with
      | .error e => .error e
      | .ok (document, r) =>
        have := r.2
        match valuesOf short others false (document :: done) r.1 with
        | .error e => .error e
        | .ok (values, r') => .ok (values, start.transRest (r.trans r'))
termination_by 2 * text.length + 1
decreasing_by all_goals omega

end

/-- The document of a JSON text that has the given shape. -/
def document (shape : Shape) (text : String) : Except ReadError Document :=
  match valueOf shape text.toList with
  | .error e => .error e
  | .ok (document, rest) =>
    if (skipGap rest.1).isEmpty then .ok document else .error (.malformed .trailingCharacters)

/-- The value that a JSON text describes. -/
def read {α : Type} (decoder : Decoder α) (text : String) : Except ReadError α :=
  match document decoder.shape text with
  | .error e => .error e
  | .ok d =>
    match decoder.decode d with
    | .ok a => .ok a
    | .error e => .error (.unfit e)

end CodeListing.Json
