import CodeListing.Isa.Literal

/-!
# Operands of x86 instructions

Registers, memory operands and immediate values, and how they are written.
-/

set_option autoImplicit false

namespace CodeListing.Isa.X86

/-- The two modes of the processor that are decoded. -/
inductive Mode where
  | bits32
  | bits64
  deriving DecidableEq, Repr

/-- The size of an operand. -/
inductive Width where
  | byte
  | word
  | dword
  | qword
  deriving DecidableEq, Repr

namespace Width

/-- The size in bytes. -/
def bytes : Width → Nat
  | .byte => 1
  | .word => 2
  | .dword => 4
  | .qword => 8

/-- The size in bits. -/
def bits (width : Width) : Nat := 8 * width.bytes

/-- The name of the size in front of a memory operand. -/
def name : Width → String
  | .byte => "byte"
  | .word => "word"
  | .dword => "dword"
  | .qword => "qword"

end Width

/-- The size of a pointer. -/
def Mode.pointerWidth : Mode → Width
  | .bits32 => .dword
  | .bits64 => .qword

/-- The word cut to the size of a pointer. -/
def Mode.truncate : Mode → UInt64 → UInt64
  | .bits32, word => word &&& 0xFFFFFFFF
  | .bits64, word => word

/-- A general register at some size; the second byte of a register is one of its own. -/
inductive Register where
  | general (number : Nat) (width : Width)
  | highByte (number : Nat)
  deriving DecidableEq, Repr

/-- The common part of the names of the first eight registers. -/
def registerStem (number : Nat) : String :=
  ["ax", "cx", "dx", "bx", "sp", "bp", "si", "di"].getD number ""

/-- The name of a register. -/
def Register.name : Register → String
  | .highByte number => ["ah", "ch", "dh", "bh"].getD (number - 4) ""
  | .general number .qword =>
    if number < 8 then "r" ++ registerStem number else "r" ++ Text.decimal number
  | .general number .dword =>
    if number < 8 then "e" ++ registerStem number else "r" ++ Text.decimal number ++ "d"
  | .general number .word =>
    if number < 8 then registerStem number else "r" ++ Text.decimal number ++ "w"
  | .general number .byte =>
    if number < 8 then ["al", "cl", "dl", "bl", "spl", "bpl", "sil", "dil"].getD number ""
    else "r" ++ Text.decimal number ++ "b"

/-- A segment register in front of a memory operand. -/
inductive Segment where
  | fs
  | gs
  deriving DecidableEq, Repr

/-- What a memory operand starts from. -/
inductive Base where
  | none
  /-- The address of the next instruction. -/
  | rip
  /-- The lower half of the address of the next instruction. -/
  | eip
  | register (register : Register)
  deriving DecidableEq, Repr

/-- A memory operand. -/
structure Memory where
  segment : Option Segment
  base : Base
  index : Option Register
  scale : Nat
  /-- The displacement, extended to a word by its sign. -/
  displacement : UInt64
  deriving DecidableEq, Repr

/-- An operand. -/
inductive Operand where
  | register (register : Register)
  /-- A memory operand, with the size of what lies there if it is written. -/
  | memory (memory : Memory) (size : Option Width)
  /-- A value that belongs to an operand of the given size, written with or without a sign. -/
  | immediate (value : UInt64) (size : Width) (signed : Bool)
  deriving DecidableEq, Repr

/-- The name of what a memory operand starts from. -/
def Base.name? : Base → Option String
  | .none => Option.none
  | .rip => some "rip"
  | .eip => some "eip"
  | .register r => some r.name

/-- The text of an index register and its scale. -/
def indexText (index : Register) (scale : Nat) : String :=
  if scale == 1 then index.name else index.name ++ "*" ++ Text.decimal scale

/-- A displacement behind a base or an index. -/
def displacementText (displacement : UInt64) : String :=
  let value := signedOfBits 64 displacement.toNat
  if value == 0 then ""
  else if value < 0 then " - " ++ literal value.natAbs
  else " + " ++ literal value.natAbs

/-- The text between the brackets of a memory operand. -/
def Memory.inner (memory : Memory) (mode : Mode) : String :=
  let parts := memory.base.name?.toList ++ (memory.index.map (indexText · memory.scale)).toList
  if parts.isEmpty then literal (mode.truncate memory.displacement).toNat
  else String.intercalate " + " parts ++ displacementText memory.displacement

/-- The text of a segment in front of the brackets. -/
def segmentText : Option Segment → String
  | Option.none => ""
  | some .fs => "fs:"
  | some .gs => "gs:"

/-- The text of an operand. -/
def Operand.text (mode : Mode) : Operand → String
  | .register r => r.name
  | .memory place size =>
    let sizeText := (size.map fun w => w.name ++ " ptr ").getD ""
    sizeText ++ segmentText place.segment ++ "[" ++ place.inner mode ++ "]"
  | .immediate value size signed =>
    if signed then signedWordLiteral value else literal (value.toNat % (1 <<< size.bits))

end CodeListing.Isa.X86
