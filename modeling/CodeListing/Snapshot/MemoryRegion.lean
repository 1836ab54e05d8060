import CodeListing.CodeRange
import CodeListing.Text.HexBytes

/-!
# Regions of memory
-/

set_option autoImplicit false

namespace CodeListing

/-- The lowest `count` bytes of a word, the lowest first. -/
def leastBytes (value : UInt64) (count : Nat) : List UInt8 :=
  (List.range count).map fun k => UInt8.ofNat (value.toNat >>> (8 * k))

/-- Bytes of memory from an address on. -/
structure MemoryRegion where
  address : UInt64
  bytes : List UInt8
  deriving DecidableEq, Repr

namespace MemoryRegion

/-- A cell that holds a pointer. -/
def pointer (address value : UInt64) (pointerSize : Nat) : MemoryRegion :=
  ⟨address, leastBytes value pointerSize⟩

/-- The address behind the last byte; the largest address if the region reaches that far. -/
def stop (region : MemoryRegion) : UInt64 :=
  saturatingAdd region.address (UInt64.ofNat region.bytes.length)

/-- The region as a document. -/
def toDocument (region : MemoryRegion) : Document :=
  .object [("address", .ofAddress region.address),
    ("bytes", .string (Text.HexBytes.encode region.bytes))]

/-- How regions are read off documents. -/
def decoder : Document.Decoder MemoryRegion :=
  .record "MemoryRegion" <|
    mk <$> .required "address" .address
      <*> .required "bytes" (.ofText Text.HexBytes.decode fun fault => fault.message)

/-- The region that a document gives. -/
def ofDocument? : Document → Document.Decoded MemoryRegion := decoder.read

end MemoryRegion

end CodeListing
