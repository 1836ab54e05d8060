import CodeListing.Document.Scalar

/-!
# Shapes of documents

A shape says what a document has to be: a scalar of some kind, a list, or a record whose fields have
shapes of their own.  A record is written as an object with named members, of which unknown ones are
ignored, or as a list of its fields in the order of their declaration.  The check of a document
against a shape finds the fault that comes first in the order of the document; only then are fields
looked for that are not there.
-/

set_option autoImplicit false

namespace CodeListing.Document

mutual

/-- What a document has to be. -/
inductive Shape where
  /-- A text; the function says why a text is refused, if it is. -/
  | text (refusal? : String → Option String)
  | flag
  | unsigned (bits : Nat)
  /-- One of several names. -/
  | variant (names : List String)
  /-- Null, or what the inner shape says. -/
  | optional (inner : Shape)
  | list (item : Shape)
  | record (name : String) (layout : Layout)
  /-- Whatever passes a test of its own. -/
  | custom (accept : Document → Decoded Unit)

/-- The fields of a record in the order of their declaration, each with its name and its shape;
a field that is not needed has a default. -/
inductive Layout where
  | nil
  | cons (field : String) (needed : Bool) (shape : Shape) (rest : Layout)

end

namespace Shape

/-- Null fits the shape. -/
def isOptional : Shape → Bool
  | .optional _ => true
  | _ => false

/-- The shape of a document that is not null. -/
def required : Shape → Shape
  | .optional inner => inner.required
  | shape => shape

end Shape

namespace Layout

/-- The fields of two layouts. -/
def append : Layout → Layout → Layout
  | .nil, other => other
  | .cons field needed shape rest, other => .cons field needed shape (rest.append other)

/-- The names of the fields. -/
def fields : Layout → List String
  | .nil => []
  | .cons field _ _ rest => field :: rest.fields

/-- The shape of the field with this name. -/
def shape? (key : String) : Layout → Option Shape
  | .nil => none
  | .cons field _ shape rest => if field == key then some shape else rest.shape? key

/-- The first field that is needed and not among the given ones. -/
def missing? (given : List String) : Layout → Option String
  | .nil => none
  | .cons field needed _ rest =>
    if needed && !given.contains field then some field else rest.missing? given

end Layout

/-- The error for a record whose list of fields ends before the field at this position. -/
def tooShort (record : String) (layout : Layout) (position : Nat) : DecodeError :=
  .wrongLength position
    ("struct " ++ record ++ " with " ++ countOf layout.fields.length "element")

/-- The error for a record whose list goes on behind the last field. -/
def tooLong (setAside : Bool) (layout : Layout) (length : Nat) : DecodeError :=
  .wrongLength length
    (if setAside then countOf layout.fields.length "element" ++ " in sequence"
    else "fewer elements in array")

mutual

/-- The first fault of a document that should have this shape; `setAside` says that it was set aside
before its shape was known. -/
def Shape.check (setAside : Bool) : Shape → Document → Decoded Unit
  | .text refusal?, document => do
    let text ← document.text?
    match refusal? text with
    | some reason => .error (.refused reason)
    | none => .ok ()
  | .flag, document => document.flag?.map fun _ => ()
  | .unsigned bits, document => (document.unsigned? bits).map fun _ => ()
  | .variant names, document =>
    (document.variant? setAside (names.map fun name => (name, ()))).map fun _ => ()
  | .optional inner, document =>
    match document with
    | .null => .ok ()
    | other => inner.check setAside other
  | .list item, document =>
    match document with
    | .array items => items.forM (item.check setAside)
    | other => .error (.wrongKind other.describe "a sequence")
  | .record name layout, document =>
    match document with
    | .object members => do
      members.forM fun (key, value) => layout.checkMember setAside key value
      match layout.missing? (members.map Prod.fst) with
      | some field => .error (.missingField field)
      | none => .ok ()
    | .array values => do
      layout.checkValues setAside (tooShort name layout) 0 values
      if layout.fields.length < values.length then
        .error (tooLong setAside layout values.length)
      else .ok ()
    | other => .error (.wrongKind other.describe ("struct " ++ name))
  | .custom accept, document => accept document

/-- The first fault of a member of a record; an unknown member has none. -/
def Layout.checkMember (setAside : Bool) : Layout → String → Document → Decoded Unit
  | .nil, _, _ => .ok ()
  | .cons field _ shape rest, key, value =>
    if field == key then shape.check setAside value else rest.checkMember setAside key value

/-- The first fault of a record whose fields are given in order, from a position on; `short` is the
error for a list that ends at a position. -/
def Layout.checkValues (setAside : Bool) (short : Nat → DecodeError) :
    Layout → Nat → List Document → Decoded Unit
  | .nil, _, _ => .ok ()
  | .cons _ needed shape rest, position, values =>
    match values with
    | [] =>
      if needed then .error (short position)
      else rest.checkValues setAside short (position + 1) []
    | value :: others => do
      shape.check setAside value
      rest.checkValues setAside short (position + 1) others

end

end CodeListing.Document
