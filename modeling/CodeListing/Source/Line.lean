import CodeListing.Document.Decoder

/-!
# Source lines
-/

set_option autoImplicit false

namespace CodeListing

/-- A piece of source text that belongs to the code at an address. -/
structure SourceLine where
  address : UInt64
  file : String
  number : UInt32
  text : String
  deriving DecidableEq, Repr

namespace SourceLine

/-- Which line of which file it is. -/
def key (line : SourceLine) : String × UInt32 := (line.file, line.number)

/-- The members of the line in a document. -/
def members (line : SourceLine) : List (String × Document) :=
  [("instruction_pointer", .ofAddress line.address), ("file_path", .string line.file),
    ("line_number", .ofWord line.number), ("text", .string line.text)]

/-- The line as a document. -/
def toDocument (line : SourceLine) : Document := .object line.members

/-- How source lines are read off documents. -/
def decoder : Document.Decoder SourceLine :=
  .record "SourceLine" <|
    mk <$> .required "instruction_pointer" .address
      <*> .required "file_path" .text
      <*> .required "line_number" .word
      <*> .required "text" .text

/-- The line that a document gives. -/
def ofDocument? : Document → Document.Decoded SourceLine := decoder.read

end SourceLine

end CodeListing
