import CodeListing.Document.Decoder

/-!
# Ranges of compiled code
-/

set_option autoImplicit false

namespace CodeListing

/-- Sum of addresses that stops at the largest one. -/
def saturatingAdd (a b : UInt64) : UInt64 :=
  if a.toNat + b.toNat < UInt64.size then a + b else 0xFFFFFFFFFFFFFFFF

/-- A contiguous block of compiled machine code. -/
structure CodeRange where
  start : UInt64
  length : UInt32
  deriving DecidableEq, Repr

namespace CodeRange

/-- The address behind the last byte; the largest address if the range reaches that far. -/
def stop (range : CodeRange) : UInt64 :=
  saturatingAdd range.start range.length.toUInt64

/-- The address lies in the range. -/
def contains (range : CodeRange) (address : UInt64) : Bool :=
  range.start ≤ address && address < range.stop

/-- The range has no bytes. -/
def isEmpty (range : CodeRange) : Bool :=
  range.length == 0

/-- The range as a document. -/
def toDocument (range : CodeRange) : Document :=
  .object [("start_address", .ofAddress range.start), ("length", .ofWord range.length)]

/-- How ranges are read off documents. -/
def decoder : Document.Decoder CodeRange :=
  .record "CodeRange" <|
    mk <$> .required "start_address" .address <*> .required "length" .word

/-- The range that a document gives. -/
def ofDocument? : Document → Document.Decoded CodeRange := decoder.read

end CodeRange

end CodeListing
