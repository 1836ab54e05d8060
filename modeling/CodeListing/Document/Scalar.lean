import CodeListing.Document.DecodeError

/-!
# Scalars of a document as typed values

How texts, truth values, numbers and named values are read off a document.
-/

set_option autoImplicit false

namespace CodeListing.Document

/-- A text. -/
def text? : Document → Decoded String
  | .string text => .ok text
  | other => .error (.wrongKind other.describe "a string")

/-- A truth value. -/
def flag? : Document → Decoded Bool
  | .bool b => .ok b
  | other => .error (.wrongKind other.describe "a boolean")

/-- An unsigned number of `bits` bits. -/
def unsigned? (bits : Nat) : Document → Decoded Nat
  | .number (.whole n) =>
    if 0 ≤ n ∧ n < Int.ofNat (1 <<< bits) then .ok n.toNat
    else .error (.wrongValue (describe (ofInt n)) ("u" ++ Text.decimal bits))
  | other => .error (.wrongKind other.describe ("u" ++ Text.decimal bits))

/-- The value with this name among named values. -/
def named? {α : Type} (variants : List (String × α)) (name : String) : Decoded α :=
  match variants.lookup name with
  | some a => .ok a
  | none => .error (.unknownVariant name (variants.map Prod.fst))

/-- The document says nothing beyond the name that it belongs to: it is null or, if it was set aside
before its type was known, an object without members. -/
def isBareContent (setAside : Bool) : Document → Bool
  | .null => true
  | .object [] => setAside
  | _ => false

/-- One of several named values: its name, or an object with its name as only key. -/
def variant? {α : Type} (setAside : Bool) (variants : List (String × α)) :
    Document → Decoded α
  | .string name => named? variants name
  | .object [(name, content)] => do
    let a ← named? variants name
    if content.isBareContent setAside then .ok a
    else .error (.wrongKind content.describe "unit")
  | .object _ => .error (.wrongValue "map" "map with a single key")
  | other => .error (.wrongKind other.describe "string or map")

end CodeListing.Document
