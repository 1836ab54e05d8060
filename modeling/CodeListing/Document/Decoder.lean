import CodeListing.Document.Shape

/-!
# Decoders

A decoder knows the shape of the documents that describe values of a type, and how such a document
becomes a value.  Decoders of records are put together field by field, in the order in which the
fields are declared.
-/

set_option autoImplicit false

namespace CodeListing.Document

/-- How values of a type are read off documents. -/
structure Decoder (α : Type) where
  shape : Shape
  /-- The value of a document that has the shape. -/
  decode : Document → Decoded α

/-- How the fields of a record are read off members with names. -/
structure RecordDecoder (α : Type) where
  layout : Layout
  /-- The value of members that have the layout. -/
  decode : List (String × Document) → Decoded α

namespace RecordDecoder

/-- A record without fields. -/
def ofValue {α : Type} (a : α) : RecordDecoder α :=
  ⟨.nil, fun _ => .ok a⟩

/-- The fields of two records, the first of which takes the value of the second. -/
def apply {α β : Type} (first : RecordDecoder (α → β)) (second : RecordDecoder α) :
    RecordDecoder β where
  layout := first.layout.append second.layout
  decode members := do
    let f ← first.decode members
    let a ← second.decode members
    return f a

instance : Applicative RecordDecoder where
  pure := ofValue
  seq first second := apply first (second ())

/-- A field that has to be given. -/
def required {α : Type} (field : String) (decoder : Decoder α) : RecordDecoder α where
  layout := .cons field true decoder.shape .nil
  decode members :=
    match members.lookup field with
    | some document => decoder.decode document
    | none => .error (.missingField field)

/-- A field with a default. -/
def withDefault {α : Type} (field : String) (default : α) (decoder : Decoder α) :
    RecordDecoder α where
  layout := .cons field false decoder.shape .nil
  decode members :=
    match members.lookup field with
    | some document => decoder.decode document
    | none => .ok default

end RecordDecoder

namespace Decoder

/-- The value that a document describes, or its first fault. -/
def read {α : Type} (decoder : Decoder α) (document : Document) : Decoded α := do
  decoder.shape.check false document
  decoder.decode document

/-- A text. -/
def text : Decoder String :=
  ⟨.text fun _ => none, text?⟩

/-- A value with a text form of its own. -/
def ofText {α ε : Type} (parse : String → Except ε α) (message : ε → String) : Decoder α where
  shape := .text fun text =>
    match parse text with
    | .ok _ => none
    | .error e => some (message e)
  decode document := do
    let text ← document.text?
    match parse text with
    | .ok a => .ok a
    | .error e => .error (.refused (message e))

/-- A truth value. -/
def flag : Decoder Bool :=
  ⟨.flag, flag?⟩

/-- An unsigned number of `bits` bits. -/
def unsigned (bits : Nat) : Decoder Nat :=
  ⟨.unsigned bits, unsigned? bits⟩

/-- A decoder whose values are converted. -/
def map {α β : Type} (f : α → β) (decoder : Decoder α) : Decoder β :=
  ⟨decoder.shape, fun document => (decoder.decode document).map f⟩

/-- An address. -/
def address : Decoder UInt64 := (unsigned 64).map (UInt64.ofNat ·)

/-- A number of 32 bits. -/
def word : Decoder UInt32 := (unsigned 32).map (UInt32.ofNat ·)

/-- A byte. -/
def byte : Decoder UInt8 := (unsigned 8).map (UInt8.ofNat ·)

/-- One of several named values. -/
def variant {α : Type} (variants : List (String × α)) : Decoder α :=
  ⟨.variant (variants.map Prod.fst), variant? true variants⟩

/-- A value that may be absent. -/
def optional {α : Type} (decoder : Decoder α) : Decoder (Option α) where
  shape := .optional decoder.shape
  decode
    | .null => .ok none
    | document => (decoder.decode document).map some

/-- A list. -/
def list {α : Type} (decoder : Decoder α) : Decoder (List α) where
  shape := .list decoder.shape
  decode
    | .array items => items.mapM decoder.decode
    | other => .error (.wrongKind other.describe "a sequence")

/-- A record with its name. -/
def record {α : Type} (name : String) (fields : RecordDecoder α) : Decoder α where
  shape := .record name fields.layout
  decode
    | .object members => fields.decode members
    | .array values => fields.decode (fields.layout.fields.zip values)
    | other => .error (.wrongKind other.describe ("struct " ++ name))

end Decoder

/-- A field that may be left out or null. -/
def RecordDecoder.optional {α : Type} (field : String) (decoder : Decoder α) :
    RecordDecoder (Option α) :=
  withDefault field none decoder.optional

end CodeListing.Document
