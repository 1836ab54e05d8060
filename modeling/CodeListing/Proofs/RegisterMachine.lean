import CodeListing.Isa.Arm64.Facts

/-!
# A machine with Arm64 registers

What instructions do to the general registers, as far as it matters for what is known about them:
addresses and numbers are formed in 64-bit registers, loads read eight bytes of a memory that does
not change, and control goes on to the next instruction.

The instructions that form addresses have their exact meaning.  Of all others only this is said,
which register they write: their first operand if they have a result (`Op.hasResult`), and none
otherwise.  Instructions that write another register, by a writeback or as the second one of a pair,
have no meaning here, and neither have those that write half a register, calls and branches that are
taken.
-/

set_option autoImplicit false

namespace CodeListing.Isa.Arm64

/-- The full registers, the stack pointer and the zero register among them. -/
def Register.isWide : Register → Bool
  | .x _ | .sp | .xzr => true
  | .w _ | .wsp | .wzr => false

/-- The contents of the registers. -/
structure Machine where
  x : Nat → UInt64
  sp : UInt64

namespace Machine

/-- What an operand register holds; a half register is the lower half of a full one. -/
def read (machine : Machine) : Register → UInt64
  | .x n => machine.x n
  | .w n => machine.x n &&& 0xFFFFFFFF
  | .sp => machine.sp
  | .wsp => machine.sp &&& 0xFFFFFFFF
  | .xzr | .wzr => 0

/-- The machine with another value in one of its registers. -/
def set (machine : Machine) (d : Nat) (value : UInt64) : Machine :=
  { machine with x := fun n => if n = d then value else machine.x n }

end Machine

/-- The bytes at all addresses. -/
abbrev Memory := UInt64 → UInt8

/-- The eight bytes from an address on, the lowest first. -/
def Memory.load (memory : Memory) (address : UInt64) : UInt64 :=
  UInt64.ofNat (littleEndian ((List.range 8).map fun k => memory (address + UInt64.ofNat k)))

namespace Op

/-- Stores; their names begin with `st`. -/
def isStore : Op → Bool
  | .str | .stur | .stp => true
  | .other name => Text.startsWith name "st"
  | _ => false

/-- Stores that may fail; half a register, their first operand, tells whether they did. -/
def isExclusiveStore : Op → Bool
  | .other name => Text.startsWith name "stx" || Text.startsWith name "stlx"
  | _ => false

/-- Operations that only set the condition flags. -/
def isComparison : Op → Bool
  | .cmp | .cmn | .tst => true
  | .other name => name == "ccmp" || name == "ccmn"
  | _ => false

/-- Branches that are taken in any case. -/
def isJump : Op → Bool
  | .b | .bl | .br | .blr | .ret => true
  | _ => false

/-- Branches that are taken on a condition. -/
def isConditional : Op → Bool
  | .bCond _ | .cbz | .cbnz | .tbz | .tbnz => true
  | .other name => Text.startsWith name "b."
  | _ => false

/-- Operations that order memory accesses, announce them, or do nothing. -/
def isHint : Op → Bool
  | .nop => true
  | .other name => ["dmb", "dsb", "isb", "prfm"].contains name
  | _ => false

/-- The operation has a result, which goes to its first operand. -/
def hasResult (op : Op) : Bool :=
  !(op.isStore || op.isComparison || op.isJump || op.isConditional || op.isHint)

end Op

/-- The operand also moves the register that its address starts from. -/
def Operand.writesBack : Operand → Bool
  | .memory _ _ _ writeback => writeback != .none
  | _ => false

namespace Insn

/-- The instruction forms an address, or takes part in it: one of those with an exact meaning. -/
def formsAddress (insn : Insn) : Bool :=
  match insn.op, insn.operands with
  | .adr, _ | .adrp, _ | .mov, _ | .movz, _ | .movk, _ => true
  | .add, _ :: .register _ :: .immediate _ _ :: _ => true
  | .ldr, _ :: .immediate _ _ :: _ => true
  | .ldr, _ :: .memory _ none _ _ :: _ => true
  | _, _ => false

/-- Any other instruction that writes its first operand at most. -/
def isOther (insn : Insn) : Bool :=
  !insn.formsAddress && !insn.op.isJump && !insn.op.isExclusiveStore && insn.op != .ldp &&
    !insn.operands.any (·.writesBack)

end Insn

/-- The instruction takes the machine from one state to another and goes on to the next one. -/
inductive Executes (memory : Memory) : Insn → Machine → Machine → Prop
  | address {op : Op} {d : Nat} {value : UInt64} {signed : Bool} {machine : Machine}
      (hop : op = .adr ∨ op = .adrp) :
      Executes memory ⟨op, [.register (.x d), .immediate value signed], none⟩ machine
        (machine.set d value)
  | add {d : Nat} {s : Register} {n : UInt64} {signed : Bool} {shift : Option Nat}
      {machine : Machine} (hwide : s.isWide) (hshift : shift = none ∨ shift = some 12) :
      Executes memory ⟨.add, [.register (.x d), .register s, .immediate n signed], shift⟩ machine
        (machine.set d (machine.read s + UInt64.ofNat (n.toNat <<< shift.getD 0)))
  | moveNumber {op : Op} {d : Nat} {n : UInt64} {signed : Bool} {shift : Option Nat}
      {machine : Machine} (hop : op = .mov ∨ op = .movz) (hshift : shift.getD 0 < 64) :
      Executes memory ⟨op, [.register (.x d), .immediate n signed], shift⟩ machine
        (machine.set d (UInt64.ofNat (n.toNat <<< shift.getD 0)))
  /-- Sixteen bits of the register are replaced and the others kept. -/
  | movePart {d : Nat} {n value : UInt64} {signed : Bool} {shift : Option Nat} {machine : Machine}
      (hshift : shift.getD 0 < 64)
      (hbits : ∀ k < 64, value.toBitVec.getLsbD k =
        if shift.getD 0 ≤ k ∧ k < shift.getD 0 + 16 then n.toBitVec.getLsbD (k - shift.getD 0)
        else (machine.x d).toBitVec.getLsbD k) :
      Executes memory ⟨.movk, [.register (.x d), .immediate n signed], shift⟩ machine
        (machine.set d value)
  | moveRegister {d : Nat} {s : Register} {machine : Machine} (hwide : s.isWide) :
      Executes memory ⟨.mov, [.register (.x d), .register s], none⟩ machine
        (machine.set d (machine.read s))
  | loadLiteral {d : Nat} {address : UInt64} {signed : Bool} {machine : Machine} :
      Executes memory ⟨.ldr, [.register (.x d), .immediate address signed], none⟩ machine
        (machine.set d (memory.load address))
  | loadCell {d : Nat} {base : Register} {displacement : UInt64} {machine : Machine}
      (hwide : base.isWide) :
      Executes memory ⟨.ldr, [.register (.x d), .memory base none displacement .none], none⟩ machine
        (machine.set d (memory.load (machine.read base + displacement)))
  /-- Any value may be the result of another instruction. -/
  | result {insn : Insn} {d : Nat} {value : UInt64} {machine : Machine} (hother : insn.isOther)
      (hresult : insn.op.hasResult) (hfirst : insn.operands.head? = some (.register (.x d))) :
      Executes memory insn machine (machine.set d value)
  /-- Without result, or with one that goes to no general register. -/
  | quiet {insn : Insn} {machine : Machine} (hother : insn.isOther)
      (hquiet : insn.op.hasResult = false ∨ insn.operands.head?.bind (·.register?) = none) :
      Executes memory insn machine machine

/-- Instructions are executed one after the other. -/
inductive Runs (memory : Memory) : List Insn → Machine → Machine → Prop
  | nil {machine : Machine} : Runs memory [] machine machine
  | cons {insn : Insn} {rest : List Insn} {first second last : Machine}
      (hfirst : Executes memory insn first second) (hrest : Runs memory rest second last) :
      Runs memory (insn :: rest) first last

end CodeListing.Isa.Arm64
