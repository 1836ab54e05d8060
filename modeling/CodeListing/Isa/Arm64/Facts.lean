import CodeListing.Isa.Arm64.Decode
import CodeListing.Isa.Stream
import CodeListing.Text.Blank
import CodeListing.Text.Search

/-!
# What is known about Arm64 registers

No Arm64 instruction holds a whole address.  The usual sequences that form one are followed from
instruction to instruction: a register may be known to hold a value, or to have been loaded from a
cell at a known address.  How far a number is shifted is read off the text of the operands.
-/

set_option autoImplicit false

namespace CodeListing.Isa.Arm64

/-- A number for some of the registers, under their full names. -/
structure RegisterMap where
  entries : List (Register × UInt64) := []
  deriving Repr

namespace RegisterMap

/-- The number of a register. -/
def get? (map : RegisterMap) (r : Register) : Option UInt64 :=
  map.entries.lookup r

/-- The register has no number any more. -/
def erase (map : RegisterMap) (r : Register) : RegisterMap :=
  ⟨map.entries.filter (·.1 != r)⟩

/-- The register has this number from now on. -/
def insert (map : RegisterMap) (r : Register) (number : UInt64) : RegisterMap :=
  ⟨(r, number) :: (map.erase r).entries⟩

/-- Erasing one register leaves the others as they are. -/
theorem get?_erase (map : RegisterMap) (r s : Register) :
    (map.erase r).get? s = if s = r then none else map.get? s := by
  obtain ⟨entries⟩ := map
  show (entries.filter (·.1 != r)).lookup s = if s = r then none else entries.lookup s
  induction entries with
  | nil => simp
  | cons head rest ih =>
    obtain ⟨q, number⟩ := head
    by_cases hq : q = r
    · subst hq
      by_cases hs : s = q
      · subst hs
        simpa using ih
      · have hne : (s == q) = false := beq_eq_false_iff_ne.2 hs
        simpa [List.lookup_cons, hne, hs] using ih
    · by_cases hs : s = q
      · subst hs
        simp [hq]
      · have hne : (s == q) = false := beq_eq_false_iff_ne.2 hs
        simpa [List.lookup_cons, hne, hq] using ih

/-- Inserting one register leaves the others as they are. -/
theorem get?_insert (map : RegisterMap) (r s : Register) (number : UInt64) :
    (map.insert r number).get? s = if s = r then some number else map.get? s := by
  show ((r, number) :: (map.erase r).entries).lookup s = _
  by_cases hs : s = r
  · subst hs
    simp
  · have hne : (s == r) = false := beq_eq_false_iff_ne.2 hs
    have herase := get?_erase map r s
    rw [if_neg hs] at herase ⊢
    rw [List.lookup_cons, hne]
    exact herase

end RegisterMap

/-- What is known about registers. -/
structure Facts where
  /-- The values that registers hold. -/
  values : RegisterMap := {}
  /-- The addresses of the cells that registers were loaded from. -/
  cells : RegisterMap := {}
  deriving Repr

namespace Facts

/-- Nothing is known about this register any more. -/
def forget (facts : Facts) (r : Register) : Facts :=
  ⟨facts.values.erase r, facts.cells.erase r⟩

/-- The register holds this value from now on. -/
def setValue (facts : Facts) (r : Register) (value : UInt64) : Facts :=
  ⟨facts.values.insert r value, facts.cells.erase r⟩

/-- The register was loaded from the cell at this address. -/
def setCell (facts : Facts) (r : Register) (cell : UInt64) : Facts :=
  ⟨facts.values.erase r, facts.cells.insert r cell⟩

/-- What was known about one register, a value or a cell, becomes known about another. -/
def copy (facts : Facts) (destination : Register) (value cell : Option UInt64) : Facts :=
  match value, cell with
  | some v, _ => (facts.forget destination).setValue destination v
  | none, some c => (facts.forget destination).setCell destination c
  | none, none => facts.forget destination

end Facts

/-- The full register that an operand names. -/
def Operand.register? : Operand → Option Register
  | .register r => some r.full
  | _ => none

/-- The number that an operand is. -/
def Operand.immediate? : Operand → Option UInt64
  | .immediate value _ => some value
  | _ => none

/-- The operation leaves its first register as it was. -/
def Op.keepsFirst : Op → Bool
  | .b | .bl | .bCond _ | .br | .blr | .cbz | .cbnz | .tbz | .tbnz => true
  | .cmp | .cmn | .tst | .nop | .str | .stur | .stp => true
  | .other name =>
    Text.startsWith name "st" || Text.startsWith name "b." ||
      ["ccmp", "ccmn", "dmb", "dsb", "isb", "prfm"].contains name
  | _ => false

/-- The amount of the first shift to the left in the text of operands, or zero. -/
def shiftAmount (text : String) : UInt32 :=
  match Text.afterFirst? "lsl #".toList text.toList with
  | none => 0
  | some rest =>
    let digits := (Text.trimChars rest).takeWhile fun c => !(c == ',' || Text.isBlank c)
    match digits with
    | '0' :: 'x' :: hex => (Text.readHexWord? hex).getD 0
    | _ => (Text.readWord? digits).getD 0

/-- The number shifted to the left as the text of the instruction says. -/
def Insn.shifted (insn : Insn) (value : UInt64) : UInt64 :=
  value <<< (shiftAmount insn.operandText).toUInt64

/-- A register is known to hold the value from now on, and the instruction refers to it. -/
def Facts.form (facts : Facts) (r : Register) (value : UInt64) : Reference × Facts :=
  (.direct value, facts.setValue r value)

/-- A register is loaded from the cell from now on, and the instruction refers to it. -/
def Facts.load (facts : Facts) (r : Register) (cell : UInt64) : Reference × Facts :=
  (.direct cell, facts.setCell r cell)

/-- The instruction writes the register and nothing is known about the result. -/
def Facts.lose (facts : Facts) (r : Register) : Reference × Facts :=
  (.none, facts.forget r)

/-- A branch through a register. -/
def Facts.transfer (facts : Facts) (r : Option Register) : Reference :=
  match r.bind facts.cells.get?, r.bind facts.values.get? with
  | some c, _ => .through c
  | none, some v => .direct v
  | none, none => .unknownTransfer

/-- A register that is written by an operation on the other operands. -/
def Facts.write (facts : Facts) (insn : Insn) (d : Register) (operands : List Operand) :
    Reference × Facts :=
  match insn.op, operands with
  | .adr, .immediate v _ :: _ => facts.form d v
  | .adrp, .immediate v _ :: _ => (.none, facts.setValue d v)
  | .add, .register s :: .immediate n _ :: _ =>
    match facts.values.get? s.full with
    | some v => facts.form d (v + insn.shifted n)
    | none => facts.lose d
  | .mov, .immediate v _ :: _ | .movz, .immediate v _ :: _ => facts.form d (insn.shifted v)
  | .mov, .register s :: _ | .movz, .register s :: _ =>
    (.none, facts.copy d (facts.values.get? s.full) (facts.cells.get? s.full))
  | .movk, .immediate n _ :: _ =>
    match facts.values.get? d with
    | some old =>
      let mask := insn.shifted 0xFFFF
      facts.form d ((old &&& ~~~mask) ||| (insn.shifted n &&& mask))
    | none => facts.lose d
  | .ldr, .immediate c _ :: _ => facts.load d c
  | .ldr, .memory base none displacement _ :: _ =>
    match facts.values.get? base.full with
    | some v => facts.load d (v + displacement)
    | none => facts.lose d
  | op, _ => if op.keepsFirst then (.none, facts) else facts.lose d

/-- The reference of an instruction, and what is known behind it. -/
def Facts.step (facts : Facts) (insn : Insn) : Reference × Facts :=
  let first := insn.operands.head?.bind (·.register?)
  match insn.op with
  | .b | .bl =>
    (((insn.operands.findSome? (·.immediate?)).map Reference.direct).getD .none, facts)
  | .bCond _ | .cbz | .cbnz | .tbz | .tbnz =>
    (((insn.operands.reverse.findSome? (·.immediate?)).map Reference.direct).getD .none, facts)
  | .br => (facts.transfer first, {})
  | .blr => (facts.transfer first, facts)
  | .ret => (.none, {})
  | _ =>
    match first with
    | some d => facts.write insn d insn.operands.tail
    | none => (.none, facts)

/-- The decoder of Arm64 instructions that are read one at a time, which remembers facts about
registers. -/
def decoderOf (read : UInt64 → List UInt8 → Option Insn) : Decoder Facts where
  minLength := 4
  minLength_pos := by decide
  start := {}
  decode := fun facts address bytes =>
    (read address bytes).map fun insn =>
      let (reference, facts') := facts.step insn
      (⟨4, insn.op.name, insn.operandText, reference⟩, facts')

/-- The decoder of the Arm64 instructions that are known here. -/
def decoder : Decoder Facts := decoderOf decode

end CodeListing.Isa.Arm64
