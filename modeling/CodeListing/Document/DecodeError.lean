import CodeListing.Document.Basic

/-!
# Why a document does not fit a type
-/

set_option autoImplicit false

namespace CodeListing.Document

/-- The first reason why a document does not describe a value of the wanted type. -/
inductive DecodeError where
  /-- The value has another kind than the one that is wanted. -/
  | wrongKind (found : String) (wanted : String)
  /-- The value has the right kind but is out of range. -/
  | wrongValue (found : String) (wanted : String)
  /-- A list has more or fewer elements than are wanted. -/
  | wrongLength (found : Nat) (wanted : String)
  | missingField (name : String)
  | duplicateField (name : String)
  | unknownVariant (found : String) (wanted : List String)
  /-- The key of a map from numbers is not a number. -/
  | keyNotNumber
  /-- The text of the value was refused by the reader of its own format. -/
  | refused (reason : String)
  deriving DecidableEq, Repr

/-- A value read off a document, or the reason why the document does not fit. -/
abbrev Decoded (α : Type) := Except DecodeError α

/-- The names of the variants as a message lists them. -/
def variantList : List String → String
  | [] => "there are no variants"
  | [a] => "`" ++ a ++ "`"
  | [a, b] => "`" ++ a ++ "` or `" ++ b ++ "`"
  | names => "one of " ++ String.intercalate ", " (names.map fun name => "`" ++ name ++ "`")

/-- The text of the error. -/
def DecodeError.message : DecodeError → String
  | .wrongKind found wanted => "invalid type: " ++ found ++ ", expected " ++ wanted
  | .wrongValue found wanted => "invalid value: " ++ found ++ ", expected " ++ wanted
  | .wrongLength found wanted =>
    "invalid length " ++ Text.decimal found ++ ", expected " ++ wanted
  | .missingField name => "missing field `" ++ name ++ "`"
  | .duplicateField name => "duplicate field `" ++ name ++ "`"
  | .unknownVariant found wanted =>
    "unknown variant `" ++ found ++ "`, expected " ++ variantList wanted
  | .keyNotNumber => "invalid value: expected key to be a number in quotes"
  | .refused reason => reason

/-- A number of things, for messages. -/
def countOf (count : Nat) (thing : String) : String :=
  Text.decimal count ++ " " ++ thing ++ (if count == 1 then "" else "s")

end CodeListing.Document
