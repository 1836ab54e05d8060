import CodeListing.Proofs.RegisterMachine
import CodeListing.Proofs.ShiftAmount

/-!
# What is known about registers is true

Facts are collected instruction by instruction, without the machine.  `Facts.Sound` says that they
are true of a machine: a register with a known value holds it, a register with a known cell holds
what the cell holds, and no register has both.  An instruction that writes a register replaces what
is known about it.  So whatever it does to the machine, the facts stay true (`Sound.step`), and from
no facts on they are true after every sequence of instructions (`Sound.runs`).

A branch through a register then goes where the facts say.
-/

set_option autoImplicit false

namespace CodeListing.Isa.Arm64

/-! ## Replacing a part of a register -/

/-- The register with sixteen bits of it, from bit `s` on, replaced by a number. -/
def replacedPart (old n : UInt64) (s : Nat) : UInt64 :=
  (old &&& ~~~UInt64.ofNat (0xFFFF <<< s)) |||
    (UInt64.ofNat (n.toNat <<< s) &&& UInt64.ofNat (0xFFFF <<< s))

/-- The bits of a shifted number are those of the number, moved up. -/
theorem getLsbD_ofNat_shiftLeft (n s : Nat) {k : Nat} (hk : k < 64) :
    (UInt64.ofNat (n <<< s)).toBitVec.getLsbD k = (decide (s ≤ k) && n.testBit (k - s)) := by
  rw [UInt64.toBitVec_ofNat', BitVec.getLsbD_ofNat, Nat.testBit_shiftLeft, decide_eq_true hk,
    Bool.true_and]

/-- Masking, shifting and joining replaces the bits of the part and keeps the others. -/
theorem getLsbD_replacedPart (old n : UInt64) (s : Nat) {k : Nat} (hk : k < 64) :
    (replacedPart old n s).toBitVec.getLsbD k =
      if s ≤ k ∧ k < s + 16 then n.toBitVec.getLsbD (k - s) else old.toBitVec.getLsbD k := by
  have hmask : Nat.testBit 0xFFFF (k - s) = decide (k - s < 16) :=
    Nat.testBit_two_pow_sub_one 16 (k - s)
  have hn : n.toNat.testBit (k - s) = n.toBitVec.getLsbD (k - s) := rfl
  simp only [replacedPart, UInt64.toBitVec_or, UInt64.toBitVec_and, UInt64.toBitVec_not,
    BitVec.getLsbD_or, BitVec.getLsbD_and, BitVec.getLsbD_not, getLsbD_ofNat_shiftLeft _ _ hk,
    hmask, hn]
  by_cases hlow : s ≤ k
  · by_cases hhigh : k < s + 16
    · have hinside : k - s < 16 := by omega
      simp [hlow, hhigh, hinside, hk]
    · have houtside : ¬ k - s < 16 := by omega
      simp [hlow, hhigh, houtside, hk]
  · simp [hlow, hk]

/-! ## What an instruction does to the facts -/

/-- Apart from jumps, the operations that keep their first operand are those without result. -/
theorem Op.keepsFirst_eq {op : Op} (h : op.isJump = false) : op.keepsFirst = !op.hasResult := by
  cases op with
  | other name =>
    simp only [Op.keepsFirst, Op.hasResult, Op.isStore, Op.isComparison, Op.isJump,
      Op.isConditional, Op.isHint, List.contains_cons, List.contains_nil, Bool.or_false,
      Bool.not_not]
    ac_rfl
  | b | bl | br | blr | ret => cases h
  | _ => rfl

/-- An instruction with a result is no branch. -/
theorem Op.not_branch_of_hasResult {op : Op} (h : op.hasResult = true) :
    op.isJump = false ∧ op.isConditional = false := by
  simp only [Op.hasResult, Bool.not_eq_true', Bool.or_eq_false_iff] at h
  exact ⟨h.1.1.2, h.1.2⟩

/-- A full register is the full register that it is a part of. -/
theorem Register.full_of_isWide {r : Register} (h : r.isWide = true) : r.full = r := by
  cases r with
  | w n => cases h
  | _ => rfl

/-- Any other instruction forms no address and is no jump. -/
theorem Insn.of_isOther {insn : Insn} (h : insn.isOther = true) :
    insn.formsAddress = false ∧ insn.op.isJump = false := by
  simp only [Insn.isOther, Bool.and_eq_true, Bool.not_eq_true'] at h
  exact h.1.1.1

namespace Facts

/-- Apart from jumps, the facts change by a write to the first operand if at all. -/
theorem step_cases (facts : Facts) {insn : Insn} (h : insn.op.isJump = false) :
    insn.op.isConditional = true ∧ (facts.step insn).2 = facts ∨
      facts.step insn =
        match insn.operands.head?.bind (·.register?) with
        | some d => facts.write insn d insn.operands.tail
        | none => (.none, facts) := by
  obtain ⟨op, operands, shift⟩ := insn
  cases op with
  | b | bl | br | blr | ret => cases h
  | bCond | cbz | cbnz | tbz | tbnz => exact Or.inl ⟨rfl, rfl⟩
  | _ => exact Or.inr rfl

/-- An instruction that forms no address loses what is known about its first operand, unless it
keeps that operand. -/
theorem write_of_not_formsAddress (facts : Facts) {insn : Insn} {first : Operand} (d : Register)
    {operands : List Operand} (hoperands : insn.operands = first :: operands)
    (h : insn.formsAddress = false) :
    facts.write insn d operands =
      if insn.op.keepsFirst then (.none, facts) else facts.lose d := by
  unfold Insn.formsAddress at h
  unfold write
  -- All cases but the last are about instructions that form addresses.
  split <;> rename_i hop <;> simp [hop, hoperands] at h
  rfl

section Shifted

variable (facts : Facts) {r : Register} {n : UInt64} {signed : Bool} {shift : Option Nat}
  (hshift : shift.getD 0 < 64)

include hshift

/-- A move of a number makes the shifted number known. -/
theorem step_moveNumber {op : Op} (hop : op = .mov ∨ op = .movz) :
    (facts.step ⟨op, [.register r, .immediate n signed], shift⟩).2 =
      facts.setValue r.full (UInt64.ofNat (n.toNat <<< shift.getD 0)) := by
  have hshifted : Insn.shifted ⟨op, [.register r, .immediate n signed], shift⟩ n =
      UInt64.ofNat (n.toNat <<< shift.getD 0) :=
    Insn.shifted_eq (List.cons_ne_nil _ _) rfl hshift n
  rw [← hshifted]
  rcases hop with rfl | rfl
  · rfl
  · rfl

/-- An addition to a known value makes the sum known. -/
theorem step_add {s : Register} :
    (facts.step ⟨.add, [.register r, .register s, .immediate n signed], shift⟩).2 =
      match facts.values.get? s.full with
      | some v => facts.setValue r.full (v + UInt64.ofNat (n.toNat <<< shift.getD 0))
      | none => facts.forget r.full := by
  have hshifted :
      Insn.shifted ⟨.add, [.register r, .register s, .immediate n signed], shift⟩ n =
        UInt64.ofNat (n.toNat <<< shift.getD 0) :=
    Insn.shifted_eq (List.cons_ne_nil _ _) rfl hshift n
  show (facts.write _ r.full [.register s, .immediate n signed]).2 = _
  simp only [write, hshifted]
  cases facts.values.get? s.full with
  | none => rfl
  | some v => rfl

/-- A move of a part into a known value makes the combined value known. -/
theorem step_movePart :
    (facts.step ⟨.movk, [.register r, .immediate n signed], shift⟩).2 =
      match facts.values.get? r.full with
      | some old => facts.setValue r.full (replacedPart old n (shift.getD 0))
      | none => facts.forget r.full := by
  have hshifted : ∀ value,
      Insn.shifted ⟨.movk, [.register r, .immediate n signed], shift⟩ value =
        UInt64.ofNat (value.toNat <<< shift.getD 0) :=
    Insn.shifted_eq (List.cons_ne_nil _ _) rfl hshift
  show (facts.write _ r.full [.immediate n signed]).2 = _
  simp only [write, hshifted]
  cases facts.values.get? r.full with
  | none => rfl
  | some old => rfl

end Shifted

/-- An instruction that forms no address and has no result leaves the facts as they are. -/
theorem step_of_keepsFirst (facts : Facts) {insn : Insn} (hjump : insn.op.isJump = false)
    (hforms : insn.formsAddress = false) (hkeeps : insn.op.keepsFirst = true) :
    (facts.step insn).2 = facts := by
  obtain ⟨-, hstep⟩ | hstep := facts.step_cases hjump
  · exact hstep
  · rw [hstep]
    cases hfirst : insn.operands.head?.bind (·.register?) with
    | none => rfl
    | some d =>
      obtain ⟨first, hhead, -⟩ := Option.bind_eq_some_iff.1 hfirst
      obtain ⟨operands, hoperands⟩ := List.head?_eq_some_iff.1 hhead
      show (facts.write insn d insn.operands.tail).2 = facts
      rw [hoperands, List.tail_cons, facts.write_of_not_formsAddress _ hoperands hforms, hkeeps]
      rfl

/-- An instruction that forms no address and has a result loses what is known about its first
operand. -/
theorem step_of_hasResult (facts : Facts) {op : Op} {r : Register} {operands : List Operand}
    {shift : Option Nat} (hresult : op.hasResult = true)
    (hforms : Insn.formsAddress ⟨op, .register r :: operands, shift⟩ = false) :
    (facts.step ⟨op, .register r :: operands, shift⟩).2 = facts.forget r.full := by
  obtain ⟨hjump, hconditional⟩ := Op.not_branch_of_hasResult hresult
  have hkeeps : op.keepsFirst = false := by
    rw [Op.keepsFirst_eq hjump, hresult]
    rfl
  have hinsn : (Insn.mk op (.register r :: operands) shift).op.isJump = false := hjump
  obtain ⟨htaken, -⟩ | hstep := facts.step_cases hinsn
  · rw [hconditional] at htaken
    cases htaken
  · rw [hstep]
    show (facts.write _ r.full operands).2 = _
    rw [facts.write_of_not_formsAddress _ rfl hforms, hkeeps]
    rfl

section Other

variable (facts : Facts) {insn : Insn} (hother : insn.isOther = true)

include hother

/-- An instruction with a result loses what is known about the register that it writes. -/
theorem step_of_result {d : Nat} (hresult : insn.op.hasResult = true)
    (hfirst : insn.operands.head? = some (.register (.x d))) :
    (facts.step insn).2 = facts.forget (.x d) := by
  obtain ⟨op, operands, shift⟩ := insn
  obtain ⟨hforms, -⟩ := Insn.of_isOther hother
  obtain ⟨rest, rfl⟩ := List.head?_eq_some_iff.1 hfirst
  exact facts.step_of_hasResult hresult hforms

/-- An instruction that writes no register leaves the facts as they are. -/
theorem step_of_quiet
    (hquiet : insn.op.hasResult = false ∨ insn.operands.head?.bind (·.register?) = none) :
    (facts.step insn).2 = facts := by
  obtain ⟨hforms, hjump⟩ := Insn.of_isOther hother
  obtain hresult | hnone := hquiet
  · have hkeeps : insn.op.keepsFirst = true := by
      rw [Op.keepsFirst_eq hjump, hresult]
      rfl
    exact facts.step_of_keepsFirst hjump hforms hkeeps
  · obtain ⟨-, hstep⟩ | hstep := facts.step_cases hjump
    · exact hstep
    · rw [hstep, hnone]

end Other

end Facts

/-! ## Facts that are true of a machine -/

/-- A register that is set twice holds what it was set to last. -/
theorem Machine.set_set (machine : Machine) (d : Nat) (first second : UInt64) :
    (machine.set d first).set d second = machine.set d second := by
  have hx : ∀ n, (if n = d then second else if n = d then first else machine.x n) =
      if n = d then second else machine.x n := by
    intro n
    split
    · rfl
    · rfl
  simp only [Machine.set, hx]

/-- Every number in the map tells what a full register holds. -/
def RegisterMap.Describes (map : RegisterMap) (meaning : UInt64 → UInt64) (machine : Machine) :
    Prop :=
  ∀ r number, map.get? r = some number → ∃ n, r = .x n ∧ machine.x n = meaning number

namespace RegisterMap.Describes

variable {map : RegisterMap} {meaning : UInt64 → UInt64} {machine : Machine}

/-- Without the register that is written, the map stays true. -/
theorem erase (h : map.Describes meaning machine) (d : Nat) (value : UInt64) :
    (map.erase (.x d)).Describes meaning (machine.set d value) := by
  intro r number hnumber
  rw [get?_erase] at hnumber
  split at hnumber
  · cases hnumber
  · rename_i hr
    obtain ⟨n, rfl, hn⟩ := h r number hnumber
    have hne : n ≠ d := fun heq => hr (heq ▸ rfl)
    refine ⟨n, rfl, ?_⟩
    show (if n = d then value else machine.x n) = _
    rw [if_neg hne, hn]

/-- The register that is written may be put into the map with what it holds then. -/
theorem insert (h : map.Describes meaning machine) (d : Nat) {number value : UInt64}
    (hvalue : value = meaning number) :
    (map.insert (.x d) number).Describes meaning (machine.set d value) := by
  intro r other hother
  rw [get?_insert] at hother
  split at hother
  · rename_i hr
    cases hother
    refine ⟨d, hr, ?_⟩
    show (if d = d then value else machine.x d) = _
    rw [if_pos rfl, hvalue]
  · rename_i hr
    have herased := h.erase d value r other
    rw [get?_erase, if_neg hr] at herased
    exact herased hother

end RegisterMap.Describes

namespace Facts

/-- Known values are held by their registers, known cells hold what their registers hold, and no
register has both. -/
structure Sound (memory : Memory) (facts : Facts) (machine : Machine) : Prop where
  values : facts.values.Describes id machine
  cells : facts.cells.Describes memory.load machine
  disjoint : ∀ r, facts.values.get? r = none ∨ facts.cells.get? r = none

namespace Sound

variable {memory : Memory} {facts : Facts} {machine machine' : Machine}

/-- To know nothing is sound. -/
theorem empty (memory : Memory) (machine : Machine) : ({} : Facts).Sound memory machine where
  values := nofun
  cells := nofun
  disjoint := fun _ => Or.inl rfl

variable (h : facts.Sound memory machine)

include h

/-- A register holds the value that is known of it. -/
theorem read_of_value {r : Register} {v : UInt64} (hv : facts.values.get? r = some v) :
    machine.read r = v := by
  obtain ⟨n, rfl, hn⟩ := h.values r v hv
  exact hn

/-- A register holds what is in the cell that is known of it. -/
theorem read_of_cell {r : Register} {c : UInt64} (hc : facts.cells.get? r = some c) :
    machine.read r = memory.load c := by
  obtain ⟨n, rfl, hn⟩ := h.cells r c hc
  exact hn

/-- Facts stay sound if what is known of a register that is set is forgotten. -/
theorem forget (d : Nat) (value : UInt64) :
    (facts.forget (.x d)).Sound memory (machine.set d value) where
  values := h.values.erase d value
  cells := h.cells.erase d value
  disjoint := by
    intro r
    simp only [Facts.forget, RegisterMap.get?_erase]
    split
    · exact Or.inl rfl
    · exact h.disjoint r

/-- Facts stay sound if the value that a register is set to becomes known. -/
theorem setValue (d : Nat) (value : UInt64) :
    (facts.setValue (.x d) value).Sound memory (machine.set d value) where
  values := h.values.insert d rfl
  cells := h.cells.erase d value
  disjoint := by
    intro r
    simp only [Facts.setValue, RegisterMap.get?_insert, RegisterMap.get?_erase]
    split
    · exact Or.inr rfl
    · exact h.disjoint r

/-- Facts stay sound if the cell that a register is loaded from becomes known. -/
theorem setCell (d : Nat) (cell : UInt64) :
    (facts.setCell (.x d) cell).Sound memory (machine.set d (memory.load cell)) where
  values := h.values.erase d _
  cells := h.cells.insert d rfl
  disjoint := by
    intro r
    simp only [Facts.setCell, RegisterMap.get?_insert, RegisterMap.get?_erase]
    split
    · exact Or.inl rfl
    · exact h.disjoint r

/-- A copied fact is true of the register that it is copied to. -/
theorem copy (d : Nat) (s : Register) :
    (facts.copy (.x d) (facts.values.get? s) (facts.cells.get? s)).Sound memory
      (machine.set d (machine.read s)) := by
  -- The source may be the destination: what is copied was looked up before it is forgotten.
  have hforget := h.forget d (machine.read s)
  cases hvalue : facts.values.get? s with
  | some v =>
    have hset := hforget.setValue d v
    rw [Machine.set_set] at hset
    rw [h.read_of_value hvalue]
    exact hset
  | none =>
    cases hcell : facts.cells.get? s with
    | some c =>
      have hset := hforget.setCell d c
      rw [Machine.set_set] at hset
      rw [h.read_of_cell hcell]
      exact hset
    | none => exact hforget

/-- One instruction: whatever it does to the machine, what is known afterwards is true. -/
theorem step {insn : Insn} (hexec : Executes memory insn machine machine') :
    (facts.step insn).2.Sound memory machine' := by
  cases hexec with
  | @address op d value signed _ hop =>
    rcases hop with rfl | rfl
    · exact h.setValue d value
    · exact h.setValue d value
  | @add d s n signed shift _ hwide hshift =>
    have hsmall : shift.getD 0 < 64 := by
      rcases hshift with rfl | rfl
      · decide
      · decide
    rw [facts.step_add hsmall, Register.full_of_isWide hwide]
    cases hvalue : facts.values.get? s with
    | none => exact h.forget d _
    | some v =>
      rw [h.read_of_value hvalue]
      exact h.setValue d _
  | @moveNumber op d n signed shift _ hop hshift =>
    rw [facts.step_moveNumber hshift hop]
    exact h.setValue d _
  | @movePart d n value signed shift _ hshift hbits =>
    have hfull : (Register.x d).full = .x d := rfl
    rw [facts.step_movePart hshift, hfull]
    cases hvalue : facts.values.get? (.x d) with
    | none => exact h.forget d _
    | some old =>
      have hold : machine.x d = old := h.read_of_value hvalue
      have hpart : value = replacedPart old n (shift.getD 0) := by
        apply UInt64.toBitVec_inj.1
        apply BitVec.eq_of_getLsbD_eq
        intro k hk
        rw [hbits k hk, getLsbD_replacedPart _ _ _ hk, hold]
      rw [hpart]
      exact h.setValue d _
  | @moveRegister d s _ hwide =>
    show (facts.copy (.x d) (facts.values.get? s.full) (facts.cells.get? s.full)).Sound memory _
    rw [Register.full_of_isWide hwide]
    exact h.copy d s
  | loadLiteral => exact h.setCell _ _
  | @loadCell d base displacement _ hwide =>
    show (Facts.write facts _ (.x d) [.memory base none displacement .none]).2.Sound memory _
    simp only [Facts.write, Register.full_of_isWide hwide]
    cases hvalue : facts.values.get? base with
    | none => exact h.forget d _
    | some v =>
      rw [h.read_of_value hvalue]
      exact h.setCell d _
  | result hother hresult hfirst =>
    -- Whatever the value is, nothing is known about it.
    rw [facts.step_of_result hother hresult hfirst]
    exact h.forget _ _
  | quiet hother hquiet =>
    rw [facts.step_of_quiet hother hquiet]
    exact h

end Sound

/-- What is known after more instructions. -/
def after (facts : Facts) (insns : List Insn) : Facts :=
  insns.foldl (fun facts insn => (facts.step insn).2) facts

/-- What the decoder knows after the instructions. -/
def known (insns : List Insn) : Facts :=
  decoder.start.after insns

/-- Any sequence of instructions: what is known after it is true. -/
theorem Sound.runs {memory : Memory} {facts : Facts} {insns : List Insn}
    {machine machine' : Machine} (h : facts.Sound memory machine)
    (hruns : Runs memory insns machine machine') :
    (facts.after insns).Sound memory machine' := by
  induction hruns generalizing facts with
  | nil => exact h
  | cons hfirst _ ih => exact ih (h.step hfirst)

/-- What is known about a register decides where a branch through it goes. -/
theorem step_branch (facts : Facts) {op : Op} (hop : op = .br ∨ op = .blr) (n : Nat) :
    (facts.step ⟨op, [.register (.x n)], none⟩).1 = facts.transfer (some (.x n)) := by
  rcases hop with rfl | rfl
  · rfl
  · rfl

/-- What is known after any sequence of instructions is true: a register with a known value holds
it, a register with a known cell holds what is loaded from the cell, and no register has both.  So a
branch through a register with a known value refers to the address where it goes, and a branch
through a register with a known cell refers to the cell that holds this address. -/
theorem true_after_runs {memory : Memory} {insns : List Insn} {machine machine' : Machine}
    (hruns : Runs memory insns machine machine') :
    (∀ r v, (known insns).values.get? r = some v → machine'.read r = v) ∧
    (∀ r c, (known insns).cells.get? r = some c → machine'.read r = memory.load c) ∧
    (∀ r, (known insns).values.get? r = none ∨ (known insns).cells.get? r = none) ∧
    ∀ op, op = .br ∨ op = .blr → ∀ n,
      (∀ v, (known insns).values.get? (.x n) = some v →
        ((known insns).step ⟨op, [.register (.x n)], none⟩).1 = .direct v ∧ machine'.x n = v) ∧
      ∀ c, (known insns).cells.get? (.x n) = some c →
        ((known insns).step ⟨op, [.register (.x n)], none⟩).1 = .through c ∧
          machine'.x n = memory.load c := by
  have hsound : (known insns).Sound memory machine' := (Sound.empty memory machine).runs hruns
  refine ⟨fun _ _ => hsound.read_of_value, fun _ _ => hsound.read_of_cell, hsound.disjoint, ?_⟩
  intro op hop n
  rw [step_branch _ hop]
  refine ⟨fun v hv => ⟨?_, hsound.read_of_value hv⟩, fun c hc => ⟨?_, hsound.read_of_cell hc⟩⟩
  · rcases hsound.disjoint (.x n) with hnone | hnone
    · rw [hnone] at hv
      cases hv
    · simp [transfer, hnone, hv]
  · simp [transfer, hc]

end Facts

/-! ## An address that is formed and loaded from -/

namespace FormedAddress

/-- Forms an address in two parts, goes on to a page behind it and loads from there. -/
def program : List Insn :=
  [⟨.mov, [.register (.x 16), .immediate 0x5678 true], none⟩,
    ⟨.movk, [.register (.x 16), .immediate 0x1234 false], some 16⟩,
    ⟨.add, [.register (.x 17), .register (.x 16), .immediate 1 false], some 12⟩,
    ⟨.cmp, [.register (.x 17), .immediate 0 false], none⟩,
    ⟨.sub, [.register (.x 3), .register (.x 16), .immediate 1 false], none⟩,
    ⟨.ldr, [.register (.x 17), .memory (.x 17) none 8 .none], none⟩]

/-- A memory whose bytes tell their addresses. -/
def memory : Memory := fun address => address.toUInt8

/-- All registers are zero. -/
def start : Machine := ⟨fun _ => 0, 0⟩

end FormedAddress

namespace Facts

/-- After an address is formed in parts, moved on and loaded from, what is known is true. -/
theorem true_after_formed_address :
    ∃ machine', Runs FormedAddress.memory FormedAddress.program FormedAddress.start machine' ∧
      (known FormedAddress.program).values.get? (.x 16) = some 0x12345678 ∧
      machine'.read (.x 16) = 0x12345678 ∧
      (known FormedAddress.program).cells.get? (.x 17) = some 0x12346680 ∧
      machine'.read (.x 17) = FormedAddress.memory.load 0x12346680 := by
  have hpart : Executes FormedAddress.memory
      ⟨.movk, [.register (.x 16), .immediate 0x1234 false], some 16⟩
      (FormedAddress.start.set 16 0x5678)
      ((FormedAddress.start.set 16 0x5678).set 16 0x12345678) :=
    .movePart (by decide) (by decide)
  have hdifference : ∀ machine, Executes FormedAddress.memory
      ⟨.sub, [.register (.x 3), .register (.x 16), .immediate 1 false], none⟩ machine
      (machine.set 3 0x12345677) :=
    fun _ => .result rfl rfl rfl
  obtain ⟨machine', hruns⟩ : ∃ machine', Runs FormedAddress.memory FormedAddress.program
      FormedAddress.start machine' :=
    ⟨_, .cons (.moveNumber (Or.inl rfl) (by decide)) (.cons hpart
      (.cons (.add rfl (Or.inr rfl)) (.cons (.quiet rfl (Or.inl rfl))
        (.cons (hdifference _) (.cons (.loadCell rfl) .nil)))))⟩
  have hvalue : (known FormedAddress.program).values.get? (.x 16) = some 0x12345678 := by
    decide
  have hcell : (known FormedAddress.program).cells.get? (.x 17) = some 0x12346680 := by
    decide
  obtain ⟨hvalues, hcells, -⟩ := true_after_runs hruns
  exact ⟨machine', hruns, hvalue, hvalues _ _ hvalue, hcell, hcells _ _ hcell⟩

end Facts

end CodeListing.Isa.Arm64
