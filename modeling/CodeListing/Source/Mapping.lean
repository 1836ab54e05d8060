import CodeListing.Document.Decoder

/-!
# Which source made which code
-/

set_option autoImplicit false

namespace CodeListing

/-- The source span that produced the code at an address.  Lines and columns count from one, and a
missing last line means that the span is one line. -/
structure SourceMapping where
  nativeCode : UInt64
  address : UInt64
  file : String
  lineStart : UInt32
  lineEnd : Option UInt32
  columnStart : Option UInt32
  columnEnd : Option UInt32
  deriving DecidableEq, Repr

namespace SourceMapping

/-- The last line of the span, which is never before its first. -/
def lastLine (mapping : SourceMapping) : UInt32 :=
  max (mapping.lineEnd.getD mapping.lineStart) mapping.lineStart

/-- The line with this number belongs to the span. -/
def covers (mapping : SourceMapping) (number : Nat) : Bool :=
  mapping.lineStart.toNat ≤ number && number ≤ mapping.lastLine.toNat

/-- The mapping as a document; what is not known is left out. -/
def toDocument (mapping : SourceMapping) : Document :=
  .object ([
    ("native_code", .ofAddress mapping.nativeCode),
    ("instruction_pointer", .ofAddress mapping.address),
    ("file_path", .string mapping.file),
    ("line_start", .ofWord mapping.lineStart)] ++
    Document.memberOfOption "line_end" .ofWord mapping.lineEnd ++
    Document.memberOfOption "column_start" .ofWord mapping.columnStart ++
    Document.memberOfOption "column_end" .ofWord mapping.columnEnd)

/-- How mappings are read off documents. -/
def decoder : Document.Decoder SourceMapping :=
  .record "SourceMapping" <|
    mk <$> .required "native_code" .address
      <*> .required "instruction_pointer" .address
      <*> .required "file_path" .text
      <*> .required "line_start" .word
      <*> .optional "line_end" .word
      <*> .optional "column_start" .word
      <*> .optional "column_end" .word

/-- The mapping that a document gives. -/
def ofDocument? : Document → Document.Decoded SourceMapping := decoder.read

end SourceMapping

end CodeListing
