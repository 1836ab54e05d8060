import CodeListing.Isa.Basic
import CodeListing.Snapshot.MemoryRegion

/-!
# Stubs of the runtime

The runtime emits small pieces of code that send a call on to its real target.  The code of a stub
lies on one page and its data exactly one stride higher, so the code of a stub tells which data slot
holds the target.
-/

set_option autoImplicit false

namespace CodeListing

/-- The kinds of stubs. -/
inductive StubKind where
  | callCounting
  | stubPrecode
  | fixupPrecode
  deriving DecidableEq, Repr

namespace StubKind

/-- The name of the kind. -/
def name : StubKind → String
  | .callCounting => "call_counting"
  | .stubPrecode => "stub_precode"
  | .fixupPrecode => "fixup_precode"

/-- The data slot holds a method descriptor rather than compiled code. -/
def isPrecode : StubKind → Bool
  | .callCounting => false
  | _ => true

end StubKind

/-- The exact code of one kind of stub for a stride. -/
structure StubTemplate where
  kind : StubKind
  pattern : List UInt8
  /-- Where the interesting slot lies in the data of the stub. -/
  slotOffset : UInt64
  /-- The distance from the code of the stub to its data. -/
  stride : UInt64
  deriving DecidableEq, Repr

namespace StubTemplate

/-- The slot holds a method descriptor rather than compiled code. -/
def isPrecode (template : StubTemplate) : Bool :=
  template.kind.isPrecode

/-- The bytes are the code of the stub. -/
def recognises (template : StubTemplate) (window : List UInt8) : Bool :=
  window == template.pattern

/-- The address of the interesting slot of a stub. -/
def slotAddress (template : StubTemplate) (stub : UInt64) : UInt64 :=
  stub + template.stride + template.slotOffset

/-- The code as hexadecimal text. -/
def patternText (template : StubTemplate) : String :=
  Text.HexBytes.encode template.pattern

/-- The template as a document. -/
def toDocument (template : StubTemplate) : Document :=
  .object [
    ("kind", .string template.kind.name),
    ("pattern", .ofList (fun b => .ofNat b.toNat) template.pattern),
    ("data_slot_offset", .ofAddress template.slotOffset),
    ("page_stride", .ofAddress template.stride)]

end StubTemplate

namespace Stub

/-- The displacement from the end of an instruction, `stop` bytes into the stub, to a slot of the
stub's data. -/
def slotDisplacement (stride slot stop : UInt64) : List UInt8 :=
  leastBytes (stride + slot - stop) 4

/-- The three templates for given patterns. -/
def templatesOf (stride : UInt64) (callCounting stubPrecode fixupPrecode : List UInt8) :
    List StubTemplate :=
  [⟨.callCounting, callCounting, 8, stride⟩, ⟨.stubPrecode, stubPrecode, 0, stride⟩,
    ⟨.fixupPrecode, fixupPrecode, 8, stride⟩]

/-- The stubs of x64: a load of the call counter's cell and its decrement; a load of the descriptor
and a jump to the target; a jump to the target, a load of the descriptor and a jump to the fixup. -/
def x64Templates (stride : UInt64) : List StubTemplate :=
  templatesOf stride
    ([0x48, 0x8b, 0x05] ++ slotDisplacement stride 0 7 ++ [0x66, 0xff, 0x08])
    ([0x4c, 0x8b, 0x15] ++ slotDisplacement stride 0 7 ++
      [0xff, 0x25] ++ slotDisplacement stride 8 13)
    ([0xff, 0x25] ++ slotDisplacement stride 0 6 ++
      [0x4c, 0x8b, 0x15] ++ slotDisplacement stride 8 13 ++
      [0xff, 0x25] ++ slotDisplacement stride 16 19)

/-- The word that loads a register from a distance. -/
def loadWord (register distance : UInt64) : UInt64 :=
  (0x58000000 : UInt64) ||| ((distance / 4 &&& 0x7FFFF) <<< 5) ||| register

/-- Instruction words as bytes. -/
def wordBytes (words : List UInt64) : List UInt8 :=
  words.flatMap fun word => leastBytes word 4

/-- The stubs of Arm64: a load of the call counter's cell, of the counter and its decrement; loads
of target and descriptor and a branch; a load of the target, a branch and a load of the descriptor.
-/
def arm64Templates (stride : UInt64) : List StubTemplate :=
  templatesOf stride
    (wordBytes [loadWord 9 stride, 0x7940012A, 0x7100054A])
    (wordBytes [loadWord 10 (stride + 8), loadWord 12 (stride - 4), 0xD61F0140])
    (wordBytes [loadWord 11 stride, 0xD61F0160, loadWord 12 stride])

end Stub

/-- The stubs of an instruction set, the ones to try first in front. -/
def Isa.stubTemplates (isa : Isa) (stride : UInt64) : List StubTemplate :=
  match isa with
  | .x86 .bits64 => Stub.x64Templates stride
  | .x86 .bits32 => []
  | .arm64 => Stub.arm64Templates stride

end CodeListing
