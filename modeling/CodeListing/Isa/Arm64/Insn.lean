import CodeListing.Isa.Literal

/-!
# Arm64 instructions

Operations, registers and operands, and how they are written.
-/

set_option autoImplicit false

namespace CodeListing.Isa.Arm64

/-- A register under one of its names: `x` and `w` registers with the same number share their
lower half. -/
inductive Register where
  | x (number : Nat)
  | w (number : Nat)
  | sp
  | wsp
  | xzr
  | wzr
  deriving DecidableEq, Repr

namespace Register

/-- The name of the register. -/
def name : Register → String
  | .x n => "x" ++ Text.decimal n
  | .w n => "w" ++ Text.decimal n
  | .sp => "sp"
  | .wsp => "wsp"
  | .xzr => "xzr"
  | .wzr => "wzr"

/-- The register that holds it: `w7` is a part of `x7`. -/
def full : Register → Register
  | .w n => .x n
  | r => r

/-- The register with this number, the zero register being number 31. -/
def ofNumber (wide : Bool) (n : Nat) : Register :=
  if n == 31 then (if wide then .xzr else .wzr) else if wide then .x n else .w n

/-- The register with this number, the stack pointer being number 31. -/
def ofNumberOrSp (wide : Bool) (n : Nat) : Register :=
  if n == 31 then (if wide then .sp else .wsp) else if wide then .x n else .w n

end Register

/-- The operation of an instruction. -/
inductive Op where
  | b
  | bl
  | bCond (condition : String)
  | cbz
  | cbnz
  | tbz
  | tbnz
  | br
  | blr
  | ret
  | adr
  | adrp
  | add
  | adds
  | sub
  | subs
  | cmp
  | cmn
  | tst
  | csel
  | mov
  | movz
  | movn
  | movk
  | nop
  | ldr
  | ldrsw
  | ldrh
  | ldrb
  | ldur
  | ldp
  | str
  | stur
  | stp
  /-- Any other operation, by its name. -/
  | other (name : String)
  deriving DecidableEq, Repr

/-- The name of the operation. -/
def Op.name : Op → String
  | .b => "b"
  | .bl => "bl"
  | .bCond condition => "b." ++ condition
  | .cbz => "cbz"
  | .cbnz => "cbnz"
  | .tbz => "tbz"
  | .tbnz => "tbnz"
  | .br => "br"
  | .blr => "blr"
  | .ret => "ret"
  | .adr => "adr"
  | .adrp => "adrp"
  | .add => "add"
  | .adds => "adds"
  | .sub => "sub"
  | .subs => "subs"
  | .cmp => "cmp"
  | .cmn => "cmn"
  | .tst => "tst"
  | .csel => "csel"
  | .mov => "mov"
  | .movz => "movz"
  | .movn => "movn"
  | .movk => "movk"
  | .nop => "nop"
  | .ldr => "ldr"
  | .ldrsw => "ldrsw"
  | .ldrh => "ldrh"
  | .ldrb => "ldrb"
  | .ldur => "ldur"
  | .ldp => "ldp"
  | .str => "str"
  | .stur => "stur"
  | .stp => "stp"
  | .other name => name

/-- What a load or store does with the register that its address starts from. -/
inductive Writeback where
  | none
  /-- The register is set to the address before the access. -/
  | before
  /-- The register is moved on after the access, by an operand of its own. -/
  | after
  deriving DecidableEq, Repr

/-- An operand. -/
inductive Operand where
  | register (register : Register)
  /-- A number, written with or without a sign. -/
  | immediate (value : UInt64) (signed : Bool)
  /-- A memory cell: a register, perhaps an index register shifted to the left, and a distance. -/
  | memory (base : Register) (index : Option (Register × Nat)) (displacement : UInt64)
    (writeback : Writeback)
  /-- A condition, which is no operand of its own to those who look for registers. -/
  | condition (name : String)
  deriving DecidableEq, Repr

/-- One instruction. -/
structure Insn where
  op : Op
  operands : List Operand
  /-- How far the last operand is shifted to the left, if the instruction says so. -/
  shift : Option Nat := none
  deriving DecidableEq, Repr

/-- The text of a shift to the left. -/
def shiftText (amount : Nat) : String := "lsl #" ++ Text.decimal amount

/-- The text of an operand.  A distance of zero is not written, unless it is the one that moves the
base register. -/
def Operand.text : Operand → String
  | .register r => r.name
  | .immediate value signed =>
    "#" ++ (if signed then signedWordLiteral value else literal value.toNat)
  | .memory base index displacement writeback =>
    let indexPart :=
      match index with
      | none => ""
      | some (r, 0) => ", " ++ r.name
      | some (r, amount) => ", " ++ r.name ++ ", " ++ shiftText amount
    let displacementPart :=
      if displacement == 0 && writeback != .before then ""
      else ", #" ++ signedWordLiteral displacement
    "[" ++ base.name ++ indexPart ++ displacementPart ++ "]" ++
      (if writeback == .before then "!" else "")
  | .condition name => name

/-- The text of all operands. -/
def Insn.operandText (insn : Insn) : String :=
  String.intercalate ", "
    (insn.operands.map (·.text) ++ (insn.shift.map shiftText).toList)

end CodeListing.Isa.Arm64
