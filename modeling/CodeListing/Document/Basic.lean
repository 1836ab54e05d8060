import CodeListing.Decimal.Binary64
import CodeListing.Text.Quoted

/-!
# Documents

A document is the tree that a JSON or YAML text stands for.  Objects keep their members in the order
in which they were written.
-/

set_option autoImplicit false

namespace CodeListing

/-- A number of a document: whole if it was written without point and exponent and fits 64 bits. -/
inductive Document.Number where
  | whole (value : Int)
  | real (negative : Bool) (magnitude : Binary64)
  deriving DecidableEq, Repr

/-- The tree that a structured text stands for. -/
inductive Document where
  | null
  | bool (value : Bool)
  | number (value : Document.Number)
  | string (text : String)
  | array (items : List Document)
  | object (members : List (String × Document))

namespace Document

/-- A whole number as a document. -/
def ofInt (n : Int) : Document := .number (.whole n)

/-- A natural number as a document. -/
def ofNat (n : Nat) : Document := .number (.whole n)

/-- An address as a document. -/
def ofAddress (a : UInt64) : Document := ofNat a.toNat

/-- A 32-bit number as a document. -/
def ofWord (n : UInt32) : Document := ofNat n.toNat

/-- An optional value as a document, absent values being null. -/
def ofOption {α : Type} (encode : α → Document) : Option α → Document
  | some a => encode a
  | none => .null

/-- A list as a document. -/
def ofList {α : Type} (encode : α → Document) (items : List α) : Document :=
  .array (items.map encode)

/-- The member for an optional value, left out when there is none. -/
def memberOfOption {α : Type} (key : String) (encode : α → Document) :
    Option α → List (String × Document)
  | some a => [(key, encode a)]
  | none => []

/-- The first member of an object with this key. -/
def get? (key : String) : Document → Option Document
  | .object members => members.lookup key
  | _ => none

/-- The text of a real number. -/
def realText (negative : Bool) (magnitude : Binary64) : String :=
  (if negative then "-" else "") ++ magnitude.text

/-- What kind of value a document is, for messages. -/
def describe : Document → String
  | .null => "null"
  | .bool b => "boolean `" ++ (if b then "true" else "false") ++ "`"
  | .number (.whole n) => "integer `" ++ Text.signedDecimal n ++ "`"
  | .number (.real negative magnitude) =>
    "floating point `" ++ realText negative magnitude ++ "`"
  | .string text => "string " ++ Text.quoted text
  | .array _ => "sequence"
  | .object _ => "map"

end Document

end CodeListing
