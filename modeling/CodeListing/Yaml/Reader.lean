import CodeListing.Document.Decoder
import CodeListing.Yaml.Node

/-!
# Reading YAML as a value of a type

The tree of a YAML text becomes a document under the shape that is wanted.  Any scalar can be a
text; a plain one is a number, a truth value or null if that is wanted and it is written so.  Where
nothing is written, a list has no elements and a record has no members.  A record is always written
as a map.
-/

set_option autoImplicit false

namespace CodeListing.Yaml

open CodeListing.Document (Decoder Layout Shape)

/-- The truth value that a plain scalar stands for. -/
def plainFlag? (text : String) : Option Bool :=
  if text == "true" || text == "True" || text == "TRUE" then some true
  else if text == "false" || text == "False" || text == "FALSE" then some false
  else none

/-- The plain scalar stands for null. -/
def isPlainNull (text : String) : Bool :=
  text.isEmpty || text == "null" || text == "Null" || text == "NULL" || text == "~"

/-- The digits start with a zero that does not stand alone, so that they are no decimal number. -/
def hasLeadingZero : List Char → Bool
  | '0' :: c :: rest => (c :: rest).all Char.isDigit
  | _ => false

/-- The unsigned number below `bound` that a plain scalar stands for, in base ten or behind `0x`,
`0o` or `0b`. -/
def plainUnsigned? (bound : Nat) (text : String) : Option Nat :=
  match Text.dropPlus text.toList with
  | '0' :: 'x' :: digits => (Text.readDigits? 16 digits).filter (· < bound)
  | '0' :: 'o' :: digits => (Text.readDigits? 8 digits).filter (· < bound)
  | '0' :: 'b' :: digits => (Text.readDigits? 2 digits).filter (· < bound)
  | digits =>
    if hasLeadingZero digits then none else (Text.readDigits? 10 digits).filter (· < bound)

namespace Node

/-- The texts of the keys of a map, if all of them are scalars. -/
def textMembers? : List (Node × Node) → Option (List (String × Node))
  | [] => some []
  | (.scalar key _, value) :: rest => (textMembers? rest).map ((key, value) :: ·)
  | _ :: _ => none

/-- The members of a record that a tree gives. -/
def members? : Node → Option (List (String × Node))
  | .map entries => textMembers? entries
  | .scalar "" true => some []
  | _ => none

/-- The elements of a list that a tree gives. -/
def elements? : Node → Option (List Node)
  | .list items => some items
  | .scalar "" true => some []
  | _ => none

/-- The member of a record with this name, which must not be given twice. -/
def onlyMember? (field : String) (members : List (String × Node)) : Option (Option Node) :=
  match members.filter fun member => member.1 == field with
  | [] => some none
  | [(_, node)] => some (some node)
  | _ => none

end Node

mutual

/-- The document of the given shape that a tree stands for. -/
def documentOf? : Shape → Node → Option Document
  | .text refusal?, node =>
    match node with
    | .scalar text _ => if (refusal? text).isNone then some (.string text) else none
    | _ => none
  | .flag, node =>
    match node with
    | .scalar text true => (plainFlag? text).map .bool
    | _ => none
  | .unsigned bits, node =>
    match node with
    | .scalar text true => (plainUnsigned? (1 <<< bits) text).map .ofNat
    | _ => none
  | .variant names, node =>
    match node with
    | .scalar text _ => if names.contains text then some (.string text) else none
    | _ => none
  | .optional inner, node =>
    match node with
    | .scalar text true =>
      if isPlainNull text then some .null else documentOf? inner (.scalar text true)
    | other => documentOf? inner other
  | .list item, node => do
    let items ← node.elements?
    let documents ← items.mapM (documentOf? item)
    return .array documents
  | .record _ layout, node => do
    let members ← node.members?
    let documents ← membersOf? layout members
    return .object documents
  | .custom _, _ => none

/-- The members of a record that are asked for. -/
def membersOf? : Layout → List (String × Node) → Option (List (String × Document))
  | .nil, _ => some []
  | .cons field needed shape rest, members => do
    let member ← Node.onlyMember? field members
    let others ← membersOf? rest members
    match member with
    | some node =>
      let document ← documentOf? shape node
      return (field, document) :: others
    | none => if needed then none else return others

end

/-- The value that a YAML text describes. -/
def read? {α : Type} (decoder : Decoder α) (text : String) : Option α := do
  let node ← Node.parse? text
  let document ← documentOf? decoder.shape node
  (decoder.decode document).toOption

end CodeListing.Yaml
