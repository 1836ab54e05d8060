import CodeListing.Proofs.RegisterFacts
import Mathlib.Algebra.Group.Nat.Defs

/-!
# Registers that are overwritten unnoticed

Instructions that write half a register, two registers, the base register of an address or a status
are followed as if they wrote their first operand in full and nothing else.  What they leave in the
registers is said by `Leaves`.  Compared with it, the facts behind such an instruction are right
about a register in exactly these cases (`right_iff_condition`): a whole first operand always, half
of one if what is known about it fits 32 bits, and any other register if nothing was known about it
or its contents have not changed.

In all other cases a fact is stale, and a branch through the register is taken to go where it does
not (`stale_after_overwriting`).
-/

set_option autoImplicit false

namespace CodeListing.Isa.Arm64

/-! ## What is left in registers -/

namespace Register

/-- The number of a general register, under either of its names. -/
def number? : Register → Option Nat
  | .x n | .w n => some n
  | _ => none

/-- The part of a word that the register holds; behind half a register the upper half is clear. -/
def cut (r : Register) (word : UInt64) : UInt64 :=
  if r.isWide then word else word &&& 0xFFFFFFFF

/-- The size of the register in bytes. -/
def size (r : Register) : UInt64 :=
  if r.isWide then 8 else 4

end Register

/-- How a register comes to be written. -/
inductive WriteKind where
  /-- In full, as the first operand. -/
  | whole
  /-- As the first operand, by the name of its lower half. -/
  | half
  /-- In addition to the first operand, or as a status. -/
  | beside
  deriving DecidableEq

/-- What an instruction leaves in a general register. -/
structure Write where
  register : Nat
  kind : WriteKind
  value : UInt64

namespace Register

/-- The register is written, if it is a general one. -/
def written (r : Register) (kind : WriteKind) (value : UInt64) : List Write :=
  (r.number?.map fun n => ⟨n, kind, value⟩).toList

/-- The register is written as the first operand, with as much of the word as it holds. -/
def result (r : Register) (word : UInt64) : List Write :=
  r.written (if r.isWide then .whole else .half) (r.cut word)

end Register

/-- The operands behind a memory operand, and the amount by which its base register moves. -/
inductive Writeback.Moves : Writeback → UInt64 → List Operand → UInt64 → Prop
  | before {displacement : UInt64} : Moves .before displacement [] displacement
  | after {amount : UInt64} {signed : Bool} : Moves .after 0 [.immediate amount signed] amount

/-- What the two registers of a pair are loaded with. -/
def pairWrites (memory : Memory) (first second : Register) (address : UInt64) : List Write :=
  first.result (memory.load address) ++
    second.written .beside (second.cut (memory.load (address + first.size)))

/-- The registers that an instruction writes, and what it leaves in them. -/
inductive Leaves (memory : Memory) (machine : Machine) : Insn → List Write → Prop
  | moveNumber {op : Op} {r : Register} {n : UInt64} {signed : Bool} {shift : Option Nat}
      (hop : op = .mov ∨ op = .movz) (hhalf : r.isWide = false) (hshift : shift.getD 0 < 32) :
      Leaves memory machine ⟨op, [.register r, .immediate n signed], shift⟩
        (r.result (UInt64.ofNat (n.toNat <<< shift.getD 0)))
  | moveRegister {r s : Register} (hhalf : r.isWide = false) (hsource : s.isWide = false) :
      Leaves memory machine ⟨.mov, [.register r, .register s], none⟩ (r.result (machine.read s))
  /-- Sixteen bits are replaced, the others of the lower half are kept, and the upper half is
  cleared. -/
  | movePart {d : Nat} {n value : UInt64} {signed : Bool} {shift : Option Nat}
      (hshift : shift.getD 0 + 16 ≤ 32)
      (hbits : ∀ k < 64, value.toBitVec.getLsbD k =
        if shift.getD 0 ≤ k ∧ k < shift.getD 0 + 16 then n.toBitVec.getLsbD (k - shift.getD 0)
        else decide (k < 32) && (machine.x d).toBitVec.getLsbD k) :
      Leaves memory machine ⟨.movk, [.register (.w d), .immediate n signed], shift⟩
        [⟨d, .half, value⟩]
  | addNumber {r s : Register} {n : UInt64} {signed : Bool} {shift : Option Nat}
      (hhalf : r.isWide = false) (hsource : s.isWide = false)
      (hshift : shift = none ∨ shift = some 12) :
      Leaves memory machine ⟨.add, [.register r, .register s, .immediate n signed], shift⟩
        (r.result (machine.read s + UInt64.ofNat (n.toNat <<< shift.getD 0)))
  /-- The second source may be shifted or extended in some way. -/
  | addRegister {r s t : Register} {value : UInt64} {shift : Option Nat}
      (hhalf : r.isWide = false) :
      Leaves memory machine ⟨.add, [.register r, .register s, .register t], shift⟩
        (r.result value)
  | pair {first second base : Register} {displacement : UInt64}
      (hdistinct : first.full ≠ second.full) (hbase : base.isWide = true) :
      Leaves memory machine
        ⟨.ldp, [.register first, .register second, .memory base none displacement .none], none⟩
        (pairWrites memory first second (machine.read base + displacement))
  /-- Neither of the registers that are loaded is the one that moves. -/
  | pairMoving {first second base : Register} {displacement amount : UInt64}
      {writeback : Writeback} {behind : List Operand}
      (hmoves : writeback.Moves displacement behind amount)
      (hdistinct : first.full ≠ second.full) (hbase : base.isWide = true)
      (hfirst : first.full ≠ base.full) (hsecond : second.full ≠ base.full) :
      Leaves memory machine
        ⟨.ldp, .register first :: .register second ::
          .memory base none displacement writeback :: behind, none⟩
        (pairWrites memory first second (machine.read base + displacement) ++
          base.written .beside (machine.read base + amount))
  | loadMoving {r base : Register} {displacement amount : UInt64} {writeback : Writeback}
      {behind : List Operand} (hmoves : writeback.Moves displacement behind amount)
      (hbase : base.isWide = true) (hfirst : r.full ≠ base.full) :
      Leaves memory machine
        ⟨.ldr, .register r :: .memory base none displacement writeback :: behind, none⟩
        (r.result (memory.load (machine.read base + displacement)) ++
          base.written .beside (machine.read base + amount))
  /-- Loads of other sizes, whatever they make of what they read. -/
  | otherLoadMoving {op : Op} {r base : Register} {displacement amount value : UInt64}
      {writeback : Writeback} {behind : List Operand}
      (hmoves : writeback.Moves displacement behind amount) (hop : op.hasResult = true)
      (hforms : Insn.formsAddress
        ⟨op, .register r :: .memory base none displacement writeback :: behind, none⟩ = false)
      (hbase : base.isWide = true) (hfirst : r.full ≠ base.full) :
      Leaves memory machine
        ⟨op, .register r :: .memory base none displacement writeback :: behind, none⟩
        (r.result value ++ base.written .beside (machine.read base + amount))
  | storeMoving {op : Op} {sources : List Register} {base : Register}
      {displacement amount : UInt64} {writeback : Writeback} {behind : List Operand}
      (hmoves : writeback.Moves displacement behind amount) (hop : op.isStore = true)
      (hplain : op.isExclusiveStore = false) (hbase : base.isWide = true) :
      Leaves memory machine
        ⟨op, sources.map .register ++ .memory base none displacement writeback :: behind, none⟩
        (base.written .beside (machine.read base + amount))
  | storeExclusive {op : Op} {status : Register} {others : List Operand} {value : UInt64}
      (hop : op.isExclusiveStore = true) (hhalf : status.isWide = false)
      (hvalue : value = 0 ∨ value = 1) :
      Leaves memory machine ⟨op, .register status :: others, none⟩ (status.written .beside value)

/-! ## Facts about one register -/

namespace Facts

/-- Whatever is known about the register is true of this value. -/
def Right (memory : Memory) (facts : Facts) (n : Nat) (value : UInt64) : Prop :=
  (∀ v, facts.values.get? (.x n) = some v → v = value) ∧
    ∀ c, facts.cells.get? (.x n) = some c → memory.load c = value

/-- Nothing is known about the register. -/
def Untracked (facts : Facts) (n : Nat) : Prop :=
  facts.values.get? (.x n) = none ∧ facts.cells.get? (.x n) = none

/-- What is known about the register fits its lower half. -/
def Fits (memory : Memory) (facts : Facts) (n : Nat) : Prop :=
  (∀ v, facts.values.get? (.x n) = some v → v.toNat < 2 ^ 32) ∧
    ∀ c, facts.cells.get? (.x n) = some c → (memory.load c).toNat < 2 ^ 32

variable {memory : Memory} {facts : Facts} {machine : Machine} {n : Nat}

/-- Sound facts are right about what the register holds. -/
theorem Sound.right (h : facts.Sound memory machine) (n : Nat) :
    facts.Right memory n (machine.x n) :=
  ⟨fun _ hv => (h.read_of_value hv).symm, fun _ hc => (h.read_of_cell hc).symm⟩

/-- Facts that are sound once a register was set are right about the value that was set. -/
theorem Sound.right_set {value : UInt64} (h : facts.Sound memory (machine.set n value)) :
    facts.Right memory n value := by
  have hright := h.right n
  simp only [Machine.set, if_true] at hright
  exact hright

/-- If nothing is known about a register, this is right for every value. -/
theorem right_of_untracked (h : facts.Untracked n) (value : UInt64) :
    facts.Right memory n value := by
  obtain ⟨hvalue, hcell⟩ := h
  constructor
  · intro v hv
    rw [hvalue] at hv
    cases hv
  · intro c hc
    rw [hcell] at hc
    cases hc

/-- Facts that are true of one value are true of another one only if there are none. -/
theorem right_iff_untracked {old value : UInt64} (h : facts.Right memory n old) :
    facts.Right memory n value ↔ facts.Untracked n ∨ value = old := by
  constructor
  · rintro ⟨hvalues, hcells⟩
    cases hvalue : facts.values.get? (.x n) with
    | some v => exact .inr ((hvalues v hvalue).symm.trans (h.1 v hvalue))
    | none =>
      cases hcell : facts.cells.get? (.x n) with
      | some c => exact .inr ((hcells c hcell).symm.trans (h.2 c hcell))
      | none => exact .inl ⟨hvalue, hcell⟩
  · rintro (hnone | rfl)
    · exact right_of_untracked hnone value
    · exact h

/-- Masked to its lower half, a word keeps its remainder. -/
theorem toNat_and_mask (word : UInt64) : (word &&& 0xFFFFFFFF).toNat = word.toNat % 2 ^ 32 := by
  rw [UInt64.toNat_and]
  exact Nat.and_two_pow_sub_one_eq_mod _ 32

/-- A word fits its lower half if masking leaves it as it is. -/
theorem and_mask_eq_iff (word : UInt64) : word &&& 0xFFFFFFFF = word ↔ word.toNat < 2 ^ 32 := by
  rw [← UInt64.toNat_inj, toNat_and_mask]
  omega

/-- Facts that are true of a word are true of its lower half only if they fit. -/
theorem right_and_mask_iff {word : UInt64} (h : facts.Right memory n word) :
    facts.Right memory n (word &&& 0xFFFFFFFF) ↔ facts.Fits memory n := by
  constructor
  · rintro ⟨hvalues, hcells⟩
    constructor
    · intro v hv
      have hword := h.1 v hv
      rw [← and_mask_eq_iff, hword]
      exact (hvalues v hv).symm.trans hword
    · intro c hc
      have hword := h.2 c hc
      rw [← and_mask_eq_iff, hword]
      exact (hcells c hc).symm.trans hword
  · rintro ⟨hvalues, hcells⟩
    constructor
    · intro v hv
      rw [← h.1 v hv]
      exact ((and_mask_eq_iff v).2 (hvalues v hv)).symm
    · intro c hc
      rw [← h.2 c hc]
      exact ((and_mask_eq_iff _).2 (hcells c hc)).symm

/-- The same is known about the register. -/
def SameAbout (facts facts' : Facts) (r : Register) : Prop :=
  facts'.values.get? r = facts.values.get? r ∧ facts'.cells.get? r = facts.cells.get? r

/-- Nothing is known about a register that was forgotten. -/
theorem untracked_forget (facts : Facts) (n : Nat) : (facts.forget (.x n)).Untracked n := by
  simp [Untracked, forget, RegisterMap.get?_erase]

/-- Setting the known value of a register is right about this value. -/
theorem right_setValue (facts : Facts) (n : Nat) (value : UInt64) :
    (facts.setValue (.x n) value).Right memory n value := by
  simp [Right, setValue, RegisterMap.get?_insert, RegisterMap.get?_erase]

/-- Setting the known cell of a register is right about what the cell holds. -/
theorem right_setCell (facts : Facts) (n : Nat) (cell : UInt64) :
    (facts.setCell (.x n) cell).Right memory n (memory.load cell) := by
  simp [Right, setCell, RegisterMap.get?_insert, RegisterMap.get?_erase]

/-! ## What an instruction does to the facts about other registers -/

/-- An operation on one register leaves what is known about the others. -/
theorem write_sameAbout (facts : Facts) (insn : Insn) {d r : Register} (operands : List Operand)
    (hne : r ≠ d) : facts.SameAbout (facts.write insn d operands).2 r := by
  have hset : ∀ value, facts.SameAbout (facts.setValue d value) r := by
    intro value
    simp [SameAbout, setValue, RegisterMap.get?_insert, RegisterMap.get?_erase, hne]
  have hcell : ∀ cell, facts.SameAbout (facts.setCell d cell) r := by
    intro cell
    simp [SameAbout, setCell, RegisterMap.get?_insert, RegisterMap.get?_erase, hne]
  have hforget : facts.SameAbout (facts.forget d) r := by
    simp [SameAbout, forget, RegisterMap.get?_erase, hne]
  have hcopy : ∀ value cell, facts.SameAbout (facts.copy d value cell) r := by
    intro value cell
    unfold copy
    split
    all_goals
      simp [SameAbout, setValue, setCell, forget, RegisterMap.get?_insert, RegisterMap.get?_erase,
        hne]
  unfold write
  split
  · exact hset _
  · exact hset _
  · split
    · exact hset _
    · exact hforget
  · exact hset _
  · exact hset _
  · exact hcopy _ _
  · exact hcopy _ _
  · split
    · exact hset _
    · exact hforget
  · exact hcell _
  · split
    · exact hcell _
    · exact hforget
  · split
    · exact ⟨rfl, rfl⟩
    · exact hforget

/-- Apart from jumps, nothing changes about a register that is not the first operand. -/
theorem step_sameAbout (facts : Facts) {insn : Insn} {r : Register} (hjump : insn.op.isJump = false)
    (hne : insn.operands.head?.bind (·.register?) ≠ some r) :
    facts.SameAbout (facts.step insn).2 r := by
  obtain ⟨-, hstep⟩ | hstep := facts.step_cases hjump
  · rw [hstep]
    exact ⟨rfl, rfl⟩
  · rw [hstep]
    cases hfirst : insn.operands.head?.bind (·.register?) with
    | none => exact ⟨rfl, rfl⟩
    | some d =>
      refine facts.write_sameAbout insn insn.operands.tail ?_
      rintro rfl
      exact hne hfirst

end Facts

/-! ## Stores -/

/-- An exclusive store is a store. -/
theorem Op.isStore_of_isExclusiveStore {op : Op} (h : op.isExclusiveStore = true) :
    op.isStore = true := by
  have hprefix : ∀ name more : String, Text.startsWith name ("st" ++ more) = true →
      Text.startsWith name "st" = true := by
    intro name more hstart
    simp only [Text.startsWith, List.isPrefixOf_iff_prefix, String.toList_append] at hstart ⊢
    exact (List.prefix_append _ _).trans hstart
  cases op with
  | other name =>
    simp only [Op.isExclusiveStore, Bool.or_eq_true] at h
    obtain h | h := h
    · exact hprefix name "x" h
    · exact hprefix name "lx" h
  | _ => cases h

/-- A store leaves the facts as they are. -/
theorem Facts.step_of_isStore (facts : Facts) {insn : Insn} (h : insn.op.isStore = true) :
    (facts.step insn).2 = facts := by
  obtain ⟨op, operands, shift⟩ := insn
  have hkeeps : op.keepsFirst = true := by
    cases op with
    | other name => simp [Op.keepsFirst, show Text.startsWith name "st" = true from h]
    | str | stur | stp => rfl
    | _ => cases h
  cases op with
  | other | str | stur | stp => exact facts.step_of_keepsFirst rfl rfl hkeeps
  | _ => cases h

/-! ## When the facts are right -/

/-- A register with a number is a part of the full register with this number. -/
theorem Register.full_of_number? {r : Register} {n : Nat} (h : r.number? = some n) :
    r.full = .x n := by
  cases r with
  | x m | w m =>
    cases h
    rfl
  | _ => cases h

/-- What is written to a register goes to the one with its number. -/
theorem Register.mem_written {r : Register} {kind : WriteKind} {value : UInt64} {write : Write}
    (h : write ∈ r.written kind value) : ∃ n, r.number? = some n ∧ write = ⟨n, kind, value⟩ := by
  obtain ⟨n, hn, rfl⟩ := Option.map_eq_some_iff.1 (Option.mem_toList.1 h)
  exact ⟨n, hn, rfl⟩

/-- The facts before and behind an instruction are right about a register that it writes in exactly
this case. -/
def Write.Condition (memory : Memory) (machine : Machine) (facts facts' : Facts) (write : Write) :
    Prop :=
  match write.kind with
  | .whole => True
  | .half => facts'.Fits memory write.register
  | .beside => facts.Untracked write.register ∨ write.value = machine.x write.register

section Condition

variable {memory : Memory} {machine : Machine} {facts facts' : Facts} {r : Register}

/-- The facts are true of a full result, and the register holds as much of it as it can. -/
theorem condition_of_result {word full : UInt64} (hcut : r.cut word = r.cut full)
    (hright : ∀ n, r.full = .x n → facts'.Right memory n full) {write : Write}
    (hwrite : write ∈ r.result word) :
    facts'.Right memory write.register write.value ↔
      write.Condition memory machine facts facts' := by
  obtain ⟨n, hn, rfl⟩ := Register.mem_written hwrite
  have hfull := hright n (Register.full_of_number? hn)
  simp only [hcut, Write.Condition]
  cases hwide : r.isWide with
  | true =>
    simp only [Register.cut, hwide, if_true, iff_true]
    exact hfull
  | false =>
    simp only [Register.cut, hwide, Bool.false_eq_true, if_false]
    exact Facts.right_and_mask_iff hfull

/-- The facts are what they were, while the register may hold something else now. -/
theorem condition_of_beside {value : UInt64} (hsound : facts.Sound memory machine)
    (hsame : ∀ n, r.full = .x n → facts.SameAbout facts' (.x n)) {write : Write}
    (hwrite : write ∈ r.written .beside value) :
    facts'.Right memory write.register write.value ↔
      write.Condition memory machine facts facts' := by
  obtain ⟨n, hn, rfl⟩ := Register.mem_written hwrite
  obtain ⟨hvalues, hcells⟩ := hsame n (Register.full_of_number? hn)
  simp only [Write.Condition]
  rw [← Facts.right_iff_untracked (hsound.right n)]
  simp only [Facts.Right, hvalues, hcells]

end Condition

/-- The lower half of a sum is that of the sum of the full registers. -/
theorem cut_read_full {r s : Register} (hr : r.isWide = false) (hs : s.isWide = false)
    (machine : Machine) (n : UInt64) :
    r.cut (machine.read s + n) = r.cut (machine.read s.full + n) := by
  have hsum : ∀ word : UInt64, ((word &&& 0xFFFFFFFF) + n) &&& 0xFFFFFFFF =
      (word + n) &&& 0xFFFFFFFF := by
    intro word
    apply UInt64.toNat_inj.1
    rw [Facts.toNat_and_mask, Facts.toNat_and_mask, UInt64.toNat_add, UInt64.toNat_add,
      Facts.toNat_and_mask]
    omega
  simp only [Register.cut, hr]
  cases s with
  | w m => exact hsum (machine.x m)
  | _ => rfl

/-- Replacing a part of the lower half and clearing the upper one cuts the result of replacing the
part alone. -/
theorem eq_replacedPart_and_mask {old n value : UInt64} {s : Nat} (hs : s + 16 ≤ 32)
    (hbits : ∀ k < 64, value.toBitVec.getLsbD k =
      if s ≤ k ∧ k < s + 16 then n.toBitVec.getLsbD (k - s)
      else decide (k < 32) && old.toBitVec.getLsbD k) :
    value = replacedPart old n s &&& 0xFFFFFFFF := by
  have hmask : ∀ k < 64, (0xFFFFFFFF : UInt64).toBitVec.getLsbD k = decide (k < 32) := by decide
  apply UInt64.toBitVec_inj.1
  apply BitVec.eq_of_getLsbD_eq
  intro k hk
  rw [hbits k hk, UInt64.toBitVec_and, BitVec.getLsbD_and, getLsbD_replacedPart _ _ _ hk,
    hmask k hk]
  split
  · have hlow : k < 32 := by omega
    simp [hlow]
  · exact Bool.and_comm _ _

namespace Facts

variable {memory : Memory} {machine : Machine} {facts : Facts}

/-- A load through a full register makes the cell at its known value known. -/
theorem step_loadCell (facts : Facts) {r base : Register} {displacement : UInt64}
    {writeback : Writeback} {behind : List Operand} (hbase : base.isWide = true) :
    (facts.step ⟨.ldr, .register r :: .memory base none displacement writeback :: behind,
        none⟩).2 =
      match facts.values.get? base with
      | some v => facts.setCell r.full (v + displacement)
      | none => facts.forget r.full := by
  show (facts.write _ r.full (.memory base none displacement writeback :: behind)).2 = _
  simp only [write, Register.full_of_isWide hbase]
  cases facts.values.get? base with
  | none => rfl
  | some v => rfl

/-- A first operand about which nothing is known any more. -/
theorem condition_of_lost (facts : Facts) {op : Op} {r : Register} {operands : List Operand}
    {shift : Option Nat} {value : UInt64} (hresult : op.hasResult = true)
    (hforms : Insn.formsAddress ⟨op, .register r :: operands, shift⟩ = false) {write : Write}
    (hwrite : write ∈ r.result value) :
    (facts.step ⟨op, .register r :: operands, shift⟩).2.Right memory write.register write.value ↔
      write.Condition memory machine facts
        (facts.step ⟨op, .register r :: operands, shift⟩).2 := by
  refine condition_of_result rfl ?_ hwrite
  intro d hd
  rw [facts.step_of_hasResult hresult hforms, hd]
  exact right_of_untracked (untracked_forget _ _) _

/-- Another register than the first operand. -/
theorem condition_of_other {op : Op} {first r : Register} {operands : List Operand}
    {shift : Option Nat} {value : UInt64} (hsound : facts.Sound memory machine)
    (hjump : op.isJump = false) (hne : first.full ≠ r.full) {write : Write}
    (hwrite : write ∈ r.written .beside value) :
    (facts.step ⟨op, .register first :: operands, shift⟩).2.Right memory write.register
        write.value ↔
      write.Condition memory machine facts
        (facts.step ⟨op, .register first :: operands, shift⟩).2 := by
  refine condition_of_beside hsound ?_ hwrite
  intro d hd
  refine facts.step_sameAbout hjump ?_
  rw [← hd]
  exact fun h => hne (Option.some.inj h)

/-- Behind an instruction that writes half a register, two registers, the base register of an
address or a status, the facts are right about the registers that it writes in exactly these cases:
always about a whole first operand; about half of one if what is known fits it; and about any other
register if nothing was known about it before, or if it holds what it held before. -/
theorem right_iff_condition {insn : Insn} {writes : List Write}
    (hsound : facts.Sound memory machine) (hleaves : Leaves memory machine insn writes) :
    ∀ write ∈ writes, (facts.step insn).2.Right memory write.register write.value ↔
      write.Condition memory machine facts (facts.step insn).2 := by
  intro write hwrite
  cases hleaves with
  | @moveNumber op r n signed shift hop hhalf hshift =>
    refine condition_of_result rfl ?_ hwrite
    intro d hd
    rw [facts.step_moveNumber (by omega) hop, hd]
    exact right_setValue _ _ _
  | @moveRegister r s hhalf hsource =>
    have hcut := cut_read_full hhalf hsource machine 0
    rw [UInt64.add_zero, UInt64.add_zero] at hcut
    refine condition_of_result hcut ?_ hwrite
    intro d hd
    show (facts.copy r.full (facts.values.get? s.full) (facts.cells.get? s.full)).Right memory d _
    rw [hd]
    exact (hsound.copy d s.full).right_set
  | @movePart d n value signed shift hshift hbits =>
    have hright : (facts.step ⟨.movk, [.register (.w d), .immediate n signed], shift⟩).2.Right
        memory d (replacedPart (machine.x d) n (shift.getD 0)) := by
      have hfull : (Register.w d).full = .x d := rfl
      rw [facts.step_movePart (by omega), hfull]
      cases hold : facts.values.get? (.x d) with
      | none => exact right_of_untracked (untracked_forget _ _) _
      | some old =>
        rw [show machine.x d = old from hsound.read_of_value hold]
        exact right_setValue _ _ _
    rw [List.mem_singleton.1 hwrite]
    simp only [Write.Condition]
    rw [eq_replacedPart_and_mask hshift hbits]
    exact right_and_mask_iff hright
  | @addNumber r s n signed shift hhalf hsource hshift =>
    have hsmall : shift.getD 0 < 64 := by
      obtain rfl | rfl := hshift
      · decide
      · decide
    refine condition_of_result (cut_read_full hhalf hsource machine _) ?_ hwrite
    intro d hd
    rw [facts.step_add hsmall, hd]
    cases hvalue : facts.values.get? s.full with
    | none => exact right_of_untracked (untracked_forget _ _) _
    | some v =>
      rw [hsound.read_of_value hvalue]
      exact right_setValue _ _ _
  | @addRegister r s t value shift hhalf => exact condition_of_lost facts rfl rfl hwrite
  | @pair first second base displacement hdistinct hbase =>
    obtain hwrite | hwrite := List.mem_append.1 hwrite
    · exact condition_of_lost facts rfl rfl hwrite
    · exact condition_of_other hsound rfl hdistinct hwrite
  | @pairMoving first second base displacement amount writeback behind hmoves hdistinct hbase hfirst
      hsecond =>
    obtain hwrite | hwrite := List.mem_append.1 hwrite
    · obtain hwrite | hwrite := List.mem_append.1 hwrite
      · exact condition_of_lost facts rfl rfl hwrite
      · exact condition_of_other hsound rfl hdistinct hwrite
    · exact condition_of_other hsound rfl hfirst hwrite
  | @loadMoving r base displacement amount writeback behind hmoves hbase hfirst =>
    obtain hwrite | hwrite := List.mem_append.1 hwrite
    · refine condition_of_result rfl ?_ hwrite
      intro d hd
      rw [facts.step_loadCell hbase, hd]
      cases hvalue : facts.values.get? base with
      | none => exact right_of_untracked (untracked_forget _ _) _
      | some v =>
        rw [hsound.read_of_value hvalue]
        exact right_setCell _ _ _
    · exact condition_of_other hsound rfl hfirst hwrite
  | @otherLoadMoving op r base displacement amount value writeback behind hmoves hop hforms hbase
      hfirst =>
    obtain hwrite | hwrite := List.mem_append.1 hwrite
    · exact condition_of_lost facts hop hforms hwrite
    · exact condition_of_other hsound (Op.not_branch_of_hasResult hop).1 hfirst hwrite
  | @storeMoving op sources base displacement amount writeback behind hmoves hop hplain hbase =>
    refine condition_of_beside hsound ?_ hwrite
    intro n _
    rw [facts.step_of_isStore hop]
    exact ⟨rfl, rfl⟩
  | @storeExclusive op status others value hop hhalf hvalue =>
    refine condition_of_beside hsound ?_ hwrite
    intro n _
    rw [facts.step_of_isStore (Op.isStore_of_isExclusiveStore hop)]
    exact ⟨rfl, rfl⟩

end Facts

/-! ## An address that goes stale -/

namespace Overwritten

/-- A memory of zeros. -/
def memory : Memory := fun _ => 0

/-- A register holds an address that does not fit its lower half. -/
def machine : Machine := FormedAddress.start.set 1 0x100000010

/-- The address is known. -/
def facts : Facts := ({} : Facts).setValue (.x 1) 0x100000010

/-- The facts are sound. -/
theorem sound : facts.Sound memory machine :=
  (Facts.Sound.empty memory FormedAddress.start).setValue 1 0x100000010

/-- The load that moves its base register. -/
def load : Insn :=
  ⟨.ldr, [.register (.x 0), .memory (.x 1) none 8 .before], none⟩

/-- The load leaves what it loads in one register and the moved address in the other. -/
theorem leaves_load :
    Leaves memory machine load [⟨0, .whole, memory.load 0x100000018⟩, ⟨1, .beside, 0x100000018⟩] :=
  .loadMoving .before rfl (by decide)

/-- The instruction leaves something in a register that is not what is known about it. -/
def Stale (insn : Insn) : Prop :=
  ∃ writes, Leaves memory machine insn writes ∧ ∃ write ∈ writes,
    ¬ (facts.step insn).2.Right memory write.register write.value

end Overwritten

namespace Facts

/-- The load is right about what it loads and wrong about its base register. -/
theorem right_iff_condition_of_load :
    Overwritten.facts.Sound Overwritten.memory Overwritten.machine ∧
      Leaves Overwritten.memory Overwritten.machine Overwritten.load
        [⟨0, .whole, Overwritten.memory.load 0x100000018⟩, ⟨1, .beside, 0x100000018⟩] ∧
      (Overwritten.facts.step Overwritten.load).2.Right Overwritten.memory 0
        (Overwritten.memory.load 0x100000018) ∧
      ¬ (Overwritten.facts.step Overwritten.load).2.Right Overwritten.memory 1 0x100000018 := by
  have hiff := right_iff_condition Overwritten.sound Overwritten.leaves_load
  refine ⟨Overwritten.sound, Overwritten.leaves_load, ?_, ?_⟩
  · exact (hiff _ List.mem_cons_self).2 trivial
  · intro hright
    obtain ⟨hnone, -⟩ | hvalue :=
      (hiff _ (List.mem_cons_of_mem _ List.mem_cons_self)).1 hright
    · cases hnone
    · exact absurd hvalue (by decide)

/-- Each of the forms leaves a stale fact: moves and additions of half registers, the second
register of a pair, a base register that moves before or after the access, and a status. -/
theorem stale_after_overwriting :
    Overwritten.facts.Sound Overwritten.memory Overwritten.machine ∧
      Overwritten.Stale ⟨.mov, [.register (.w 0), .register (.w 1)], none⟩ ∧
      Overwritten.Stale ⟨.mov, [.register (.w 0), .immediate 0xFFFFFFFFFFFFFFFF true], none⟩ ∧
      Overwritten.Stale ⟨.movk, [.register (.w 1), .immediate 0 false], none⟩ ∧
      Overwritten.Stale
        ⟨.add, [.register (.w 0), .register (.w 1), .immediate 4 false], none⟩ ∧
      Overwritten.Stale
        ⟨.ldp, [.register (.x 0), .register (.x 1), .memory .sp none 16 .none], none⟩ ∧
      Overwritten.Stale Overwritten.load ∧
      Overwritten.Stale ⟨.str, [.register (.x 0), .memory (.x 1) none 0 .after,
        .immediate 8 true], none⟩ ∧
      Overwritten.Stale ⟨.other "stxr",
        [.register (.w 1), .register (.x 0), .memory (.x 2) none 0 .none], none⟩ := by
  have hvalue : ∀ {insn : Insn} {writes : List Write} {write : Write} {v : UInt64},
      Leaves Overwritten.memory Overwritten.machine insn writes → write ∈ writes →
      (Overwritten.facts.step insn).2.values.get? (.x write.register) = some v →
      v ≠ write.value → Overwritten.Stale insn := by
    intro insn writes write v hleaves hwrite hknown hne
    exact ⟨writes, hleaves, write, hwrite, fun hright => hne (hright.1 v hknown)⟩
  refine ⟨Overwritten.sound, ?_, ?_, ?_, ?_, ?_, ?_, ?_, ?_⟩
  · exact hvalue (.moveRegister rfl rfl) List.mem_cons_self rfl (by decide)
  · exact hvalue (.moveNumber (.inl rfl) rfl (by decide)) List.mem_cons_self rfl (by decide)
  · have hpart : Leaves Overwritten.memory Overwritten.machine
        ⟨.movk, [.register (.w 1), .immediate 0 false], none⟩ [⟨1, .half, 0⟩] :=
      .movePart (by decide) (by decide)
    exact hvalue hpart List.mem_cons_self rfl (by decide)
  · exact hvalue (.addNumber rfl rfl (.inl rfl)) List.mem_cons_self rfl (by decide)
  · exact hvalue (.pair (by decide) rfl) (List.mem_cons_of_mem _ List.mem_cons_self) rfl
      (by decide)
  · exact hvalue Overwritten.leaves_load (List.mem_cons_of_mem _ List.mem_cons_self) rfl
      (by decide)
  · have hstore : Leaves Overwritten.memory Overwritten.machine
        ⟨.str, [Register.x 0].map .register ++ [.memory (.x 1) none 0 .after, .immediate 8 true],
          none⟩ [⟨1, .beside, 0x100000018⟩] :=
      .storeMoving .after rfl rfl rfl
    exact hvalue hstore List.mem_cons_self rfl (by decide)
  · have hkept : (Overwritten.facts.step ⟨.other "stxr",
        [.register (.w 1), .register (.x 0), .memory (.x 2) none 0 .none], none⟩).2.values.get?
          (.x 1) = some 0x100000010 := by decide
    exact hvalue (.storeExclusive (by decide) rfl (.inl rfl)) List.mem_cons_self hkept (by decide)

end Facts

end CodeListing.Isa.Arm64
