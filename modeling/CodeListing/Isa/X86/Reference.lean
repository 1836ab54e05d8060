import CodeListing.Isa.Stream
import CodeListing.Isa.X86.Decode

/-!
# Addresses in x86 operands

The first operand that can denote an address gives the reference of the instruction.
-/

set_option autoImplicit false

namespace CodeListing.Isa.X86

/-- The address that an operand denotes.  A target of a branch always does.  An immediate value of
one byte does not, nor does one of four bytes where pointers have eight.  A memory operand does if
it starts from the address of the next instruction, or from nothing at all. -/
def Operand.address? (mode : Mode) (isBranch : Bool) (next : UInt64) : Operand → Option UInt64
  | .register _ => none
  | .immediate value size _ =>
    if isBranch then some (mode.truncate value)
    else if size == .byte then none
    else if size == .dword && mode == .bits64 then none
    else some (mode.truncate value)
  | .memory place _ =>
    match place.base, place.index with
    | .rip, _ => some (next + place.displacement)
    | .none, none => some (mode.truncate place.displacement)
    | _, _ => none

/-- The operand is a register or lies in memory. -/
def Operand.isStored : Operand → Bool
  | .immediate _ _ _ => false
  | _ => true

/-- The reference of an instruction; a branch through a register or memory is indirect. -/
def Insn.reference (mode : Mode) (insn : Insn) : Reference where
  address := insn.operands.findSome? (·.address? mode insn.isBranch insn.next)
  isIndirect := insn.isBranch && insn.operands.any (·.isStored)

/-- The instruction with its texts. -/
def Insn.toFound (mode : Mode) (insn : Insn) : Found where
  length := insn.length
  mnemonic := insn.mnemonic
  operands := String.intercalate ", " (insn.operands.map (·.text mode))
  reference := insn.reference mode

/-- The decoder of x86 instructions that are read one at a time, which remembers nothing. -/
def decoderOf (mode : Mode) (read : UInt64 → List UInt8 → Option Insn) : Decoder Unit where
  minLength := 1
  minLength_pos := by decide
  start := ()
  decode := fun _ address bytes =>
    (read address bytes).map fun insn => (insn.toFound mode, ())

/-- The decoder of the x86 instructions that are known here. -/
def decoder (mode : Mode) : Decoder Unit := decoderOf mode (decode mode)

end CodeListing.Isa.X86
