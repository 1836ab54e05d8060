import CodeListing.Remainder
import CodeListing.Yaml.Token

/-!
# The tree of a YAML text

The tokens of a YAML text become one tree of scalars, lists and maps.  A reader of a part of the
tokens returns the ones that follow.  A text has one document at most, and an empty one stands for
an empty scalar.
-/

set_option autoImplicit false

namespace CodeListing.Yaml

/-- The tree that a YAML text stands for. -/
inductive Node where
  | scalar (text : String) (isPlain : Bool)
  | list (items : List Node)
  | map (entries : List (Node × Node))

namespace Node

/-- The scalar that stands where nothing is written. -/
def empty : Node := .scalar "" true

/-- Where a tree stands, which decides how it may be written. -/
inductive Position where
  /-- Between brackets. -/
  | flow
  /-- At the top of a document, or behind a dash. -/
  | block
  /-- Behind a key or a colon, where the dashes of a list need no indentation. -/
  | member
  deriving DecidableEq, Repr

/-- The token ends an element of a list whose dashes are indented. -/
def endsItem (token : Token) : Bool :=
  token == .item || token == .blockEnd

/-- The token ends an element of a list whose dashes are not indented. -/
def endsLooseItem (token : Token) : Bool :=
  endsItem token || token == .key || token == .value

/-- The token ends a key or a value of a map that is written by indentation. -/
def endsMember (token : Token) : Bool :=
  token == .key || token == .value || token == .blockEnd

/-- The token ends an element between brackets. -/
def endsFlowItem (token : Token) : Bool :=
  token == .comma || token == .flowListEnd

/-- The token ends a value between braces. -/
def endsFlowMember (token : Token) : Bool :=
  token == .comma || token == .flowMapEnd

mutual

/-- The tree at the start of the tokens. -/
def read (position : Position) (tokens : List Token) : Option (Node × Rest tokens) :=
  match tokens with
  | [] => none
  | token :: rest =>
    let behind (part : Option (Node × Rest rest)) : Option (Node × Rest (token :: rest)) :=
      part.map fun (node, r) => (node, (Rest.behind token rest).trans r)
    match token with
    | .scalar text isPlain => some (.scalar text isPlain, .behind _ rest)
    | .flowListStart => behind (flowItems true [] rest)
    | .flowMapStart => behind (flowMembers true [] rest)
    | .blockListStart => if position == .flow then none else behind (items [] rest)
    | .blockMapStart => if position == .flow then none else behind (members [] rest)
    | .item =>
      if position == .member then
        match readUnless endsLooseItem .block rest with
        | none => none
        | some (node, r) =>
          have := r.2
          (looseItems [node] r.1).map fun (node, r') =>
            (node, (Rest.behind .item rest).transTail (r.trans r'))
      else none
    | _ => none
termination_by 3 * tokens.length
decreasing_by all_goals simp only [List.length_cons] at *; omega

/-- The tree at the start of the tokens, or an empty scalar in front of a token that ends it. -/
def readUnless (ends : Token → Bool) (position : Position) (tokens : List Token) :
    Option (Node × Tail tokens) :=
  match tokens.head? with
  | none => none
  | some token =>
    if ends token then some (empty, .whole tokens)
    else (read position tokens).map fun (node, r) => (node, r.toTail)
termination_by 3 * tokens.length + 1
decreasing_by omega

/-- The elements of a list whose dashes are indented, up to its end. -/
def items (done : List Node) (tokens : List Token) : Option (Node × Rest tokens) :=
  match tokens with
  | .blockEnd :: rest => some (.list done.reverse, .behind _ rest)
  | .item :: rest =>
    match readUnless endsItem .block rest with
    | none => none
    | some (node, r) =>
      have := r.2
      (items (node :: done) r.1).map fun (node, r') =>
        (node, (Rest.behind .item rest).trans (r.transRest r'))
  | _ => none
termination_by 3 * tokens.length
decreasing_by all_goals simp only [List.length_cons] at *; omega

/-- The further elements of a list whose dashes are not indented. -/
def looseItems (done : List Node) (tokens : List Token) : Option (Node × Tail tokens) :=
  match tokens with
  | .item :: rest =>
    match readUnless endsLooseItem .block rest with
    | none => none
    | some (node, r) =>
      have := r.2
      (looseItems (node :: done) r.1).map fun (node, r') =>
        (node, ((Rest.behind .item rest).transTail (r.trans r')).toTail)
  | tokens => some (.list done.reverse, .whole tokens)
termination_by 3 * tokens.length
decreasing_by all_goals simp only [List.length_cons] at *; omega

/-- The members of a map that is written by indentation, up to its end. -/
def members (done : List (Node × Node)) (tokens : List Token) : Option (Node × Rest tokens) :=
  match tokens with
  | .blockEnd :: rest => some (.map done.reverse, .behind _ rest)
  | .key :: rest =>
    match readUnless endsMember .member rest with
    | none => none
    | some (name, r) =>
      have := r.2
      match memberValue endsMember .member r.1 with
      | none => none
      | some (content, r') =>
        have := r'.2
        (members ((name, content) :: done) r'.1).map fun (node, r'') =>
          (node, (Rest.behind .key rest).trans (r.transRest (r'.transRest r'')))
  | _ => none
termination_by 3 * tokens.length
decreasing_by all_goals simp only [List.length_cons] at *; omega

/-- The value behind a key, which may be left out. -/
def memberValue (ends : Token → Bool) (position : Position) (tokens : List Token) :
    Option (Node × Tail tokens) :=
  match tokens with
  | .value :: rest =>
    (readUnless ends position rest).map fun (node, r) =>
      (node, ((Rest.behind .value rest).transTail r).toTail)
  | tokens => some (empty, .whole tokens)
termination_by 3 * tokens.length
decreasing_by all_goals simp only [List.length_cons] at *; omega

/-- The elements of a list in brackets, up to the closing one; `first` says that none was read
yet. -/
def flowItems (first : Bool) (done : List Node) (tokens : List Token) :
    Option (Node × Rest tokens) :=
  match tokens with
  | .flowListEnd :: rest => some (.list done.reverse, .behind _ rest)
  | .comma :: rest =>
    if first then none
    else (flowItem done rest).map fun (node, r) => (node, (Rest.behind .comma rest).trans r)
  | tokens => if first then flowItem done tokens else none
termination_by 3 * tokens.length + 2
decreasing_by
  · simp only [List.length_cons]; omega
  · omega

/-- The elements of a list in brackets from the start of one on, or from its end on.  An element may
be a map with one member, without braces. -/
def flowItem (done : List Node) (tokens : List Token) : Option (Node × Rest tokens) :=
  match tokens with
  | .flowListEnd :: rest => some (.list done.reverse, .behind _ rest)
  | .key :: rest =>
    match pairKey rest with
    | none => none
    | some (name, r) =>
      have := r.2
      match memberValue endsFlowItem .flow r.1 with
      | none => none
      | some (content, r') =>
        have := r'.2
        (flowItems false (.map [(name, content)] :: done) r'.1).map fun (node, r'') =>
          (node, (Rest.behind .key rest).trans (r.transRest (r'.transRest r'')))
  | tokens =>
    match read .flow tokens with
    | none => none
    | some (item, r) =>
      have := r.2
      (flowItems false (item :: done) r.1).map fun (node, r') =>
        (node, r.trans r')
termination_by 3 * tokens.length + 1
decreasing_by
  · simp only [List.length_cons]; omega
  · simp only [List.length_cons]; omega
  · simp only [List.length_cons]; omega
  · omega
  · omega

/-- The key of a map without braces; where it is left out, the token that stands there is passed. -/
def pairKey (tokens : List Token) : Option (Node × Tail tokens) :=
  match tokens with
  | [] => none
  | token :: rest =>
    if token == .value || endsFlowItem token then some (empty, (Rest.behind token rest).toTail)
    else
      (read .flow (token :: rest)).map fun (node, r) => (node, r.toTail)
termination_by 3 * tokens.length + 1
decreasing_by omega

/-- The members of a map in braces, up to the closing one; `first` says that none was read yet. -/
def flowMembers (first : Bool) (done : List (Node × Node)) (tokens : List Token) :
    Option (Node × Rest tokens) :=
  match tokens with
  | .flowMapEnd :: rest => some (.map done.reverse, .behind _ rest)
  | .comma :: rest =>
    if first then none
    else (flowMember done rest).map fun (node, r) => (node, (Rest.behind .comma rest).trans r)
  | tokens => if first then flowMember done tokens else none
termination_by 3 * tokens.length + 2
decreasing_by
  · simp only [List.length_cons]; omega
  · omega

/-- The members of a map in braces from the start of one on, or from its end on.  A tree that is no
key has an empty value. -/
def flowMember (done : List (Node × Node)) (tokens : List Token) :
    Option (Node × Rest tokens) :=
  match tokens with
  | .flowMapEnd :: rest => some (.map done.reverse, .behind _ rest)
  | .key :: rest =>
    match readUnless (fun token => token == .value || endsFlowMember token) .flow rest with
    | none => none
    | some (name, r) =>
      have := r.2
      match memberValue endsFlowMember .flow r.1 with
      | none => none
      | some (content, r') =>
        have := r'.2
        (flowMembers false ((name, content) :: done) r'.1).map fun (node, r'') =>
          (node, (Rest.behind .key rest).trans (r.transRest (r'.transRest r'')))
  | tokens =>
    match read .flow tokens with
    | none => none
    | some (name, r) =>
      have := r.2
      (flowMembers false ((name, empty) :: done) r.1).map fun (node, r') =>
        (node, r.trans r')
termination_by 3 * tokens.length + 1
decreasing_by
  · simp only [List.length_cons]; omega
  · simp only [List.length_cons]; omega
  · simp only [List.length_cons]; omega
  · omega
  · omega

end

/-- The token ends the content of a document. -/
def endsDocument (token : Token) : Bool :=
  token == .documentStart || token == .documentEnd

/-- The tree of the only document, and the tokens behind it. -/
def document (tokens : List Token) : Option (Node × List Token) :=
  match tokens with
  | [] => some (empty, [])
  | .documentStart :: rest =>
    match rest with
    | [] => some (empty, [])
    | token :: others =>
      if endsDocument token then some (empty, token :: others)
      else (read .block rest).map fun (node, r) => (node, r.1)
  | tokens => (read .block tokens).map fun (node, r) => (node, r.1)

/-- The tree of a text. -/
def parse? (text : String) : Option Node := do
  let tokens ← tokens? text
  let (node, rest) ← document tokens
  if rest.all (· == .documentEnd) then some node else none

end Node

end CodeListing.Yaml
