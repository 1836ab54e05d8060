import CodeListing.Proofs.AddressNames
import CodeListing.Proofs.Ending

/-!
# Addresses of 32 bits

Code of a 32-bit process may lie anywhere in a word, and immediate values and displacements come
extended to a word by their sign.  Still every address that a run over such a process refers to or
names has 32 bits.  There are three sources of addresses, each narrowed at a place of its own:

* an operand denotes an address that is cut to the size of a pointer, unless it counts from the next
  instruction, which no operand does in 32-bit mode;
* a pointer cell has four bytes, and with or without stubs an indirect transfer ends at what was
  read from a cell;
* an address is named only when an instruction refers to it.
-/

set_option autoImplicit false

namespace CodeListing

/-- The address has 32 bits. -/
def IsNarrow (address : UInt64) : Prop :=
  address.toNat < UInt32.size

/-! ## Operands -/

namespace Isa.X86

/-- A word cut to 32 bits is narrow. -/
theorem isNarrow_truncate (word : UInt64) : IsNarrow (Mode.bits32.truncate word) := by
  unfold IsNarrow Mode.truncate
  rw [UInt64.toNat_and]
  exact Nat.lt_of_le_of_lt Nat.and_le_right (by decide)

/-- What a memory operand counts from is the next instruction. -/
def Operand.countsFromNext : Operand → Bool
  | .memory place _ => place.base == .rip
  | _ => false

/-- The place counts from the next instruction. -/
def Place.countsFromNext : Place → Bool
  | .memory place => place.base == .rip
  | .register _ => false

/-- A register does not count from the next instruction. -/
@[simp] theorem Operand.countsFromNext_register (r : Register) :
    (Operand.register r).countsFromNext = false := rfl

/-- An immediate value does not count from the next instruction. -/
@[simp] theorem Operand.countsFromNext_immediate (value : UInt64) (size : Width) (signed : Bool) :
    (Operand.immediate value size signed).countsFromNext = false := rfl

/-- An operand counts from the next instruction if its place does. -/
@[simp] theorem Place.countsFromNext_operand (modifiers : Modifiers) (width : Width)
    (place : Place) : (place.operand modifiers width).countsFromNext = place.countsFromNext := by
  cases place with
  | register number => rfl
  | memory m => rfl

/-- In 32-bit mode every operand that does not count from the next instruction denotes an address of
32 bits or none, whatever its value or displacement. -/
theorem Operand.isNarrow_of_address? {operand : Operand} {isBranch : Bool} {next address : UInt64}
    (hnext : operand.countsFromNext = false)
    (h : operand.address? .bits32 isBranch next = some address) : IsNarrow address := by
  cases operand with
  | register r => cases h
  | immediate value size signed =>
    simp only [Operand.address?] at h
    split at h
    · cases h
      exact isNarrow_truncate value
    · split at h
      · cases h
      · split at h
        · cases h
        · cases h
          exact isNarrow_truncate value
  | memory place size =>
    simp only [Operand.address?] at h
    split at h
    · rename_i hbase
      simp [Operand.countsFromNext, hbase] at hnext
    · cases h
      exact isNarrow_truncate place.displacement
    · cases h

/-- An instruction of 32-bit code that does not count from the next one refers to a narrow address.
-/
theorem Insn.isNarrow_reference {insn : Insn}
    (hnext : ∀ operand ∈ insn.operands, operand.countsFromNext = false) {address : UInt64}
    (h : (insn.reference .bits32).address = some address) : IsNarrow address := by
  obtain ⟨operand, hoperand, haddress⟩ := List.exists_of_findSome?_eq_some h
  exact Operand.isNarrow_of_address? (hnext operand hoperand) haddress

/-! ## Operands in 32-bit mode -/

/-- Whatever the reader finds has the property. -/
def Scan.Gives {α : Type} (P : α → Prop) (scan : Scan α) : Prop :=
  ∀ bytes a rest, scan.run bytes = some (a, rest) → P a

namespace Scan.Gives

variable {α β : Type} {P : α → Prop} {Q : β → Prop}

/-- A reader that only returns gives what it returns. -/
theorem pure {a : α} (h : P a) : (Pure.pure a : Scan α).Gives P := by
  intro bytes a' rest hrun
  cases hrun
  exact h

/-- A reader that fails gives nothing. -/
theorem failure : (Alternative.failure : Scan α).Gives P := by
  intro bytes a rest hrun
  cases hrun

/-- One reader after another gives what the second one gives behind what the first one gives. -/
theorem bind {first : Scan β} {next : β → Scan α} (h : first.Gives Q)
    (hnext : ∀ b, Q b → (next b).Gives P) : (first >>= next).Gives P := by
  intro bytes a rest hrun
  rw [StateT.run_bind] at hrun
  obtain ⟨⟨b, middle⟩, hfirst, hrest⟩ := Option.bind_eq_some_iff.1 hrun
  exact hnext b (h bytes b middle hfirst) middle a rest hrest

/-- If a reader gives only what has a property, so it does behind any other one. -/
theorem after (first : Scan β) {next : β → Scan α} (hnext : ∀ b, (next b).Gives P) :
    (first >>= next).Gives P :=
  bind (Q := fun _ => True) (fun _ _ _ _ => trivial) fun b _ => hnext b

/-- If two readers give only what has a property, so does the choice. -/
theorem ite {condition : Prop} [Decidable condition] {yes no : Scan α} (hyes : yes.Gives P)
    (hno : no.Gives P) : (if condition then yes else no).Gives P := by
  split
  · exact hyes
  · exact hno

end Scan.Gives

/-- No operand counts from the next instruction. -/
def Body.IsAbsolute (body : Body) : Prop :=
  ∀ operand ∈ body.operands, operand.countsFromNext = false

variable (modifiers : Modifiers)

/-- A scaled index does not count from the next instruction. -/
theorem gives_scaledIndex (width : Width) (mod : Nat) :
    (scaledIndex modifiers width mod).Gives fun found => (found.1 == .rip) = false := by
  refine .after _ fun b => ?_
  have hbase : ((if b % 8 == 5 && mod == 0 then Base.none
      else .register (.general (modifiers.extend 0 (b % 8)) width)) == .rip) = false := by
    split
    · rfl
    · rfl
  exact .ite (.pure hbase) (.pure hbase)

/-- In 32-bit code the place of an operand does not count from the next instruction. -/
theorem gives_operandByte :
    (operandByte .bits32 modifiers).Gives fun o => o.place.countsFromNext = false := by
  refine .after _ fun b => .ite (.pure rfl) ?_
  refine .ite (.bind (gives_scaledIndex modifiers _ _) fun found hfound => ?_) (.ite
    (.bind (Q := fun found => (found.1 == Base.rip) = false) (.pure rfl) fun found hfound => ?_)
    (.bind (Q := fun found => (found.1 == Base.rip) = false) (.pure rfl) fun found hfound => ?_))
  -- The displacement changes nothing about what the operand counts from.
  all_goals exact .after _ fun _ => .pure hfound

/-- An immediate value that is read does not count from the next instruction. -/
theorem gives_immediate (count : Nat) (width : Width) (signed : Bool) :
    (immediate count width signed).Gives fun operand => operand.countsFromNext = false :=
  .after _ fun _ => .ite (.pure rfl) (.pure rfl)

/-- A branch by a distance refers absolutely. -/
theorem gives_relativeBranch (mnemonic : String) (count : Nat) :
    (relativeBranch mnemonic count).Gives Body.IsAbsolute :=
  .after _ fun _ => .pure (by simp [Body.IsAbsolute])

/-- In 32-bit code the instructions with opcodes of two bytes refer absolutely. -/
theorem gives_longOpcode : (longOpcode .bits32 modifiers).Gives Body.IsAbsolute := by
  have hoperand := gives_operandByte modifiers
  refine .after _ fun opcode => .ite ?_ (.ite ?_ (.ite ?_ .failure))
  · exact .bind hoperand fun o ho => .ite (.pure (by simp [Body.IsAbsolute, ho])) .failure
  · exact gives_relativeBranch _ _
  · exact .bind hoperand fun o ho => .pure (by simp [Body.IsAbsolute, ho])

/-- In 32-bit code the indirect transfers refer absolutely. -/
theorem gives_transferGroup : (transferGroup .bits32 modifiers).Gives Body.IsAbsolute := by
  refine .bind (gives_operandByte modifiers) fun o ho => ?_
  dsimp only
  split
  · exact .pure (by simp [Body.IsAbsolute, ho])
  · exact .pure (by simp [Body.IsAbsolute, ho])
  · exact .pure (by simp [Body.IsAbsolute, ho])
  · exact .pure (by simp [Body.IsAbsolute, ho])
  · exact .pure (by simp [Body.IsAbsolute, ho])
  · exact .failure

/-- In 32-bit code the instructions with an operand byte refer absolutely. -/
theorem gives_operandOpcode (opcode : Nat) :
    (operandOpcode .bits32 modifiers opcode).Gives Body.IsAbsolute := by
  refine .bind (gives_operandByte modifiers) fun o ho => ?_
  have hvalue : ∀ (count : Nat) (width : Width) (signed : Bool) (mnemonic : String),
      (immediate count width signed >>= fun value => (pure {
        mnemonic, operands := [o.place.operand modifiers width, value] } : Scan Body)).Gives
          Body.IsAbsolute :=
    fun count width signed mnemonic => .bind (gives_immediate count width signed) fun value hv =>
      .pure (by simp [Body.IsAbsolute, ho, hv])
  dsimp only
  split
  · exact .ite (.pure (by simp [Body.IsAbsolute, ho])) .failure
  · exact .ite (hvalue _ _ _ _) .failure
  · exact hvalue _ _ _ _
  · exact hvalue _ _ _ _
  · exact .pure (by simp [Body.IsAbsolute, ho])
  · exact .pure (by simp [Body.IsAbsolute, ho])
  · exact .pure (by simp [Body.IsAbsolute, ho])
  · split
    · rename_i m hplace
      rw [hplace] at ho
      refine .pure ?_
      simpa [Body.IsAbsolute, Operand.countsFromNext, Place.countsFromNext] using ho
    · exact .failure
  · exact .ite (hvalue _ _ _ _) .failure
  · exact .failure

/-- In 32-bit code the arithmetic instructions refer absolutely. -/
theorem gives_arithmeticOpcode (opcode : Nat) :
    (arithmeticOpcode .bits32 modifiers opcode).Gives Body.IsAbsolute := by
  have hoperand := gives_operandByte modifiers
  unfold arithmeticOpcode
  dsimp only
  split
  · exact .ite (.bind hoperand fun o ho => .pure (by simp [Body.IsAbsolute, ho])) .failure
  · exact .bind hoperand fun o ho => .pure (by simp [Body.IsAbsolute, ho])
  · exact .bind hoperand fun o ho => .pure (by simp [Body.IsAbsolute, ho])
  · exact .bind (gives_immediate _ _ _) fun value hv => .pure (by simp [Body.IsAbsolute, hv])
  · exact .failure

/-- In 32-bit code a memory cell at an offset is referred to absolutely. -/
theorem gives_offsetMove (store : Bool) :
    (offsetMove .bits32 modifiers store).Gives Body.IsAbsolute := by
  refine .after _ fun offset => .pure ?_
  cases store with
  | true => simp [Body.IsAbsolute, Operand.countsFromNext]
  | false => simp [Body.IsAbsolute, Operand.countsFromNext]

/-- In 32-bit code the instructions without operand byte refer absolutely. -/
theorem gives_shortOpcode (opcode : Nat) :
    (shortOpcode .bits32 modifiers opcode).Gives Body.IsAbsolute := by
  have hregister : ∀ (mnemonic : String) (r : Register),
      Body.IsAbsolute { mnemonic, operands := [.register r] } := by
    simp [Body.IsAbsolute]
  have hvalue : ∀ (count : Nat) (width : Width) (signed : Bool) (mnemonic : String),
      (immediate count width signed >>= fun value => (pure {
        mnemonic, operands := [value] } : Scan Body)).Gives Body.IsAbsolute :=
    fun count width signed mnemonic => .bind (gives_immediate count width signed) fun value hv =>
      .pure (by simp [Body.IsAbsolute, hv])
  have hnone : ∀ mnemonic : String, Body.IsAbsolute { mnemonic, operands := [] } := by
    simp [Body.IsAbsolute]
  refine .ite (.pure (hregister _ _)) (.ite (.pure (hregister _ _)) (.ite (.pure (hregister _ _))
    (.ite (.pure (hregister _ _)) (.ite (gives_relativeBranch _ _) (.ite ?_ ?_)))))
  · exact .bind (gives_immediate _ _ _) fun value hv => .pure (by simp [Body.IsAbsolute, hv])
  · split
    · exact hvalue _ _ _ _
    · exact hvalue _ _ _ _
    · exact .pure (hnone _)
    · exact .pure (hnone _)
    · exact gives_offsetMove _ _
    · exact gives_offsetMove _ _
    · exact hvalue _ _ _ _
    · exact .pure (hnone _)
    · exact .pure (hnone _)
    · exact .pure (hnone _)
    · exact gives_relativeBranch _ _
    · exact gives_relativeBranch _ _
    · exact gives_relativeBranch _ _
    · exact gives_relativeBranch _ _
    · exact gives_relativeBranch _ _
    · exact gives_relativeBranch _ _
    · exact gives_relativeBranch _ _
    · exact .failure

/-- In 32-bit code all instructions refer absolutely. -/
theorem gives_body : (body .bits32 modifiers).Gives Body.IsAbsolute := by
  refine .after _ fun opcode => ?_
  refine .ite (gives_longOpcode _) (.ite (gives_arithmeticOpcode _ _) ?_)
  exact .ite (gives_transferGroup _) (.ite (gives_operandOpcode _ _) (gives_shortOpcode _ _))

/-- In 32-bit mode no operand counts from the next instruction. -/
theorem countsFromNext_of_decode {address : UInt64} {bytes : List UInt8} {insn : Insn}
    (h : decode .bits32 address bytes = some insn) :
    ∀ operand ∈ insn.operands, operand.countsFromNext = false := by
  unfold decode at h
  obtain ⟨⟨found, behind⟩, hfound, hinsn⟩ := Option.bind_eq_some_iff.1 h
  cases hinsn
  intro operand hoperand
  cases hdistance : found.distance with
  | none =>
    simp only [hdistance, Option.map_none, Option.getD_none] at hoperand
    exact gives_body _ _ found behind hfound operand hoperand
  | some distance =>
    simp only [hdistance, Option.map_some, Option.getD_some, List.mem_singleton] at hoperand
    rw [hoperand]
    rfl

/-- Wherever the decoder finds an instruction, operands say where it refers, and none of them counts
from the next instruction. -/
def RefersAbsolutely (mode : Mode) (decoder : Decoder Unit) : Prop :=
  ∀ memory address bytes found memory',
    decoder.decode memory address bytes = some (found, memory') →
      ∃ insn : Insn, found.reference = insn.reference mode ∧
        ∀ operand ∈ insn.operands, operand.countsFromNext = false

/-- A decoder reads references off operands, so it is enough that no operand it reads counts from
the next instruction. -/
theorem refersAbsolutely_decoderOf {mode : Mode} {read : UInt64 → List UInt8 → Option Insn}
    (hread : ∀ address bytes insn, read address bytes = some insn →
      ∀ operand ∈ insn.operands, operand.countsFromNext = false) :
    RefersAbsolutely mode (decoderOf mode read) := by
  intro memory address bytes found memory' h
  obtain ⟨insn, hinsn, heq⟩ := Option.map_eq_some_iff.1 h
  cases heq
  exact ⟨insn, rfl, hread address bytes insn hinsn⟩

/-- The decoder of 32-bit code that comes with the library refers absolutely. -/
theorem refersAbsolutely_decoder : RefersAbsolutely .bits32 (decoder .bits32) :=
  refersAbsolutely_decoderOf fun _ _ _ => countsFromNext_of_decode

/-- A decoder of 32-bit code that refers absolutely refers to addresses of 32 bits. -/
theorem RefersAbsolutely.isNarrow {decoder : Decoder Unit}
    (habsolute : RefersAbsolutely .bits32 decoder) {memory memory' : Unit} {address : UInt64}
    {bytes : List UInt8} {found : Found}
    (h : decoder.decode memory address bytes = some (found, memory')) {reference : UInt64}
    (hreference : found.reference.address = some reference) : IsNarrow reference := by
  obtain ⟨insn, heq, hoperands⟩ := habsolute _ _ _ _ _ h
  rw [heq] at hreference
  exact Insn.isNarrow_reference hoperands hreference

end Isa.X86

namespace Isa

/-- What holds of every instruction that a decoder finds and of every invalid marker holds of every
instruction of its streams. -/
theorem Decoder.forall_mem_streamFrom {τ : Type} {decoder : Decoder τ} {threshold : UInt64}
    {P : Instruction → Prop} (hinvalid : ∀ address bytes, P (.invalid address bytes))
    (hfound : ∀ memory address bytes found memory',
      decoder.decode memory address bytes = some (found, memory') →
        P (found.toInstruction threshold address bytes))
    (memory : τ) (address : UInt64) (bytes : List UInt8) :
    ∀ instruction ∈ decoder.streamFrom threshold memory address bytes, P instruction := by
  fun_induction decoder.streamFrom threshold memory address bytes with
  | case1 => exact fun _ hmem => absurd hmem List.not_mem_nil
  | case2 memory address bytes _ _ found memory' hdecode _ ih =>
    exact List.forall_mem_cons.2 ⟨hfound memory address bytes found memory' hdecode, ih⟩
  | case3 memory address bytes _ _ found memory' _ _ ih =>
    exact List.forall_mem_cons.2 ⟨hinvalid _ _, ih⟩
  | case4 memory address bytes _ _ _ ih =>
    exact List.forall_mem_cons.2 ⟨hinvalid _ _, ih⟩

end Isa

/-- The instruction refers to an address of 32 bits or to none. -/
def Instruction.RefersNarrowly (instruction : Instruction) : Prop :=
  ∀ address, instruction.reference = some address → IsNarrow address

/-- Every instruction of 32-bit code refers narrowly if the decoder refers absolutely. -/
theorem Isa.refersNarrowly_of_mem_decode {decoders : Decoders} {threshold address : UInt64}
    {bytes : List UInt8} (habsolute : X86.RefersAbsolutely .bits32 (decoders.x86 .bits32)) :
    ∀ instruction ∈ (Isa.x86 .bits32).decode decoders threshold address bytes,
      instruction.RefersNarrowly := by
  refine Decoder.forall_mem_streamFrom ?_ ?_ () address bytes
  · intro address bytes reference h
    cases h
  · intro memory address bytes found memory' hdecode reference h
    exact habsolute.isNarrow hdecode (Option.filter_eq_some_iff.1 h).1

/-! ## Pointers -/

variable {σ : Type}

/-- A number of four bytes is narrow. -/
theorem littleEndian_lt_of_length_eq {bytes : List UInt8} (h : bytes.length = 4) :
    Isa.littleEndian bytes < UInt32.size := by
  match bytes with
  | [a, b, c, d] =>
    have ha := a.toNat_lt
    have hb := b.toNat_lt
    have hc := c.toNat_lt
    have hd := d.toNat_lt
    show a.toNat + 256 * (b.toNat + 256 * (c.toNat + 256 * (d.toNat + 256 * 0))) < 4294967296
    omega

namespace Provider

/-- A pointer of four bytes has 32 bits. -/
theorem isNarrow_of_readPointer {provider : Provider σ} (hsize : provider.pointerSize = 4)
    {cell target : UInt64} {s : σ} (h : ((provider.readPointer cell).run s).1 = some target) :
    IsNarrow target := by
  unfold readPointer readExact at h
  rw [run_bind, run_bind, hsize] at h
  obtain ⟨bytes, hbytes, heq⟩ := Option.map_eq_some_iff.1 h
  have hlength : bytes.length = 4 := by
    obtain ⟨hlength, hsame⟩ := Option.ite_none_right_eq_some.1 hbytes
    rw [← Option.some.inj hsame]
    exact hlength
  have hlt := littleEndian_lt_of_length_eq hlength
  unfold IsNarrow
  rw [← heq, UInt64.toNat_ofNat_of_lt' (Nat.lt_trans hlt (by decide))]
  exact hlt

end Provider

/-- An indirect transfer ends at a pointer that was read. -/
theorem Stub.isNarrow_of_follow {provider : Provider σ} (hsize : provider.pointerSize = 4)
    {templates : List StubTemplate} {reusesStubs : Bool} {cell : UInt64} {s : σ}
    {destination : Destination}
    (h : ((follow provider templates reusesStubs cell).run s).1 = some destination) :
    IsNarrow destination.address := by
  unfold follow at h
  rw [run_bind] at h
  cases hcell : ((provider.readPointer cell).run s).1 with
  | none =>
    rw [hcell] at h
    cases h
  | some candidate =>
    have hcandidate := Provider.isNarrow_of_readPointer hsize hcell
    rw [hcell] at h
    dsimp only at h
    split at h
    · cases h
      exact hcandidate
    · rw [run_bind] at h
      split at h
      · cases h
        exact hcandidate
      · rw [run_bind] at h
        obtain ⟨target, htarget, rfl⟩ := Option.map_eq_some_iff.1 h
        exact Provider.isNarrow_of_readPointer hsize htarget

/-! ## Runs -/

/-- Only addresses of 32 bits are named. -/
def NameMap.NamesNarrowly (names : NameMap) : Prop :=
  ∀ address name, names.get? address = some name → IsNarrow address

/-- Names stay narrow if a narrow address is added. -/
theorem Findings.isNarrow_add {findings : Findings} {current : Current} {isPrecode : Bool}
    {address : UInt64} {finding : Finding} (hnames : findings.names.NamesNarrowly)
    (haddress : IsNarrow address) :
    (findings.add current isPrecode address finding).2.names.NamesNarrowly := by
  unfold Findings.add
  cases finding.name? current isPrecode with
  | none => exact hnames
  | some name =>
    intro other name' hother
    simp only [NameMap.get?_insert] at hother
    rcases Option.or_eq_some_iff.1 hother with hbefore | ⟨-, hadded⟩
    · exact hnames other name' hbefore
    · split at hadded
      · rename_i heq
        rw [heq]
        exact haddress
      · cases hadded

namespace Context

variable {context : Context σ}

/-- Names stay narrow when a narrow address is resolved. -/
theorem isNarrow_resolve (provider : Provider σ) (guard : UInt64) (current : Current)
    (isPrecode : Bool) {address : UInt64} {findings : Findings} (s : σ)
    (hnames : findings.names.NamesNarrowly) (haddress : IsNarrow address) :
    ((resolve provider guard current isPrecode address findings).run
      s).1.2.names.NamesNarrowly := by
  rcases resolve_cases provider guard current isPrecode address findings s with
    ⟨-, hrun⟩ | ⟨-, name, -, hrun⟩ | ⟨-, -, -, hrun⟩ | ⟨-, -, -, hrun⟩
  · rw [hrun]
    exact hnames
  · rw [hrun]
    exact hnames
  · rw [hrun]
    exact hnames
  · rw [hrun]
    exact Findings.isNarrow_add hnames haddress

/-- What an instruction refers to is the address that its operands denote, or a pointer. -/
theorem isNarrow_destination (hsize : context.provider.pointerSize = 4) {instruction : Instruction}
    {candidate : UInt64} {s : σ} {destination : Stub.Destination}
    (hcandidate : IsNarrow candidate)
    (h : ((context.destination? instruction candidate).run s).1 = some destination) :
    IsNarrow destination.address := by
  unfold destination? at h
  split at h
  · exact Stub.isNarrow_of_follow hsize h
  · cases h
    exact hcandidate

/-- With pointers of four bytes, an instruction that refers narrowly still does once it is named,
and names stay narrow. -/
theorem isNarrow_annotate (hsize : context.provider.pointerSize = 4) (current : Current)
    {instruction : Instruction} (hinstruction : instruction.RefersNarrowly) {findings : Findings}
    (hnames : findings.names.NamesNarrowly) (s : σ) :
    ((context.annotate current instruction findings).run s).1.1.RefersNarrowly ∧
      ((context.annotate current instruction findings).run s).1.2.names.NamesNarrowly := by
  rcases context.annotate_cases current instruction findings s with
    ⟨-, hrun⟩ | ⟨candidate, -, -, hrun⟩ |
    ⟨candidate, destination, symbol, findings', s', hreference, hfound, -, hresolve, hrun⟩
  · rw [hrun]
    exact ⟨hinstruction, hnames⟩
  · rw [hrun]
    refine ⟨?_, hnames⟩
    intro address h
    cases h
  · have haddress := isNarrow_destination hsize (hinstruction candidate hreference) hfound
    have hnames' := isNarrow_resolve context.provider context.guard current
      destination.isPrecode ((context.destination? instruction candidate).run s).2 hnames haddress
    rw [hresolve] at hnames'
    rw [hrun]
    refine ⟨?_, hnames'⟩
    intro address h
    cases h
    exact haddress

/-- With pointers of four bytes, instructions that refer narrowly still do once they are named, and
names stay narrow. -/
theorem isNarrow_annotateAll (hsize : context.provider.pointerSize = 4) (current : Current)
    {instructions : List Instruction} (hinstructions : ∀ i ∈ instructions, i.RefersNarrowly)
    {findings : Findings} (hnames : findings.names.NamesNarrowly) (s : σ) :
    (∀ instruction ∈ ((context.annotateAll current instructions findings).run s).1.1,
      instruction.RefersNarrowly) ∧
      ((context.annotateAll current instructions findings).run s).1.2.names.NamesNarrowly := by
  induction instructions generalizing findings s with
  | nil => exact ⟨fun _ hmem => absurd hmem List.not_mem_nil, hnames⟩
  | cons first rest ih =>
    obtain ⟨hfirst, hrest⟩ := List.forall_mem_cons.1 hinstructions
    obtain ⟨hannotated, hnames'⟩ := isNarrow_annotate hsize current hfirst hnames s
    rw [run_annotateAll_cons]
    obtain ⟨hothers, hfinal⟩ := ih hrest hnames' _
    exact ⟨List.forall_mem_cons.2 ⟨hannotated, hothers⟩, hfinal⟩

/-- Listing a method of 32-bit code keeps the names narrow, and its listing refers narrowly. -/
theorem isNarrow_listMethod (hisa : context.isa = .x86 .bits32)
    (habsolute : Isa.X86.RefersAbsolutely .bits32 (context.decoders.x86 .bits32))
    (hsize : context.provider.pointerSize = 4) {names : NameMap} (hnames : names.NamesNarrowly)
    (item : WorkItem) (s : σ) :
    (∀ instruction ∈ ((context.listMethod names item).run s).1.listing.instructions,
      instruction.RefersNarrowly) ∧
      ((context.listMethod names item).run s).1.findings.names.NamesNarrowly := by
  rcases context.listMethod_cases names item s with
    ⟨reason, -, hrun⟩ | ⟨-, -, hrun⟩ | ⟨error, s', -, -, -, hrun⟩ |
    ⟨code, s', instructions, findings, s'', -, -, -, hannotate, hrun⟩
  · rw [hrun]
    exact ⟨fun _ hmem => absurd hmem List.not_mem_nil, hnames⟩
  · rw [hrun]
    exact ⟨fun _ hmem => absurd hmem List.not_mem_nil, hnames⟩
  · rw [hrun]
    exact ⟨fun _ hmem => absurd hmem List.not_mem_nil, hnames⟩
  · have hdecoded : ∀ instruction ∈ context.decodeAll code, instruction.RefersNarrowly := by
      intro instruction hmem
      obtain ⟨piece, -, hmem⟩ := List.mem_flatMap.1 hmem
      rw [hisa] at hmem
      exact Isa.refersNarrowly_of_mem_decode habsolute instruction hmem
    have hstart : ({ names } : Findings).names.NamesNarrowly := hnames
    obtain ⟨hinstructions, hfindings⟩ :=
      isNarrow_annotateAll hsize (context.currentOf item) hdecoded hstart s'
    rw [hannotate] at hinstructions hfindings
    rw [hrun]
    refine ⟨?_, hfindings⟩
    intro instruction hmem
    exact hinstructions instruction ((Listing.mem_instructions_groupsOf rfl).1 hmem)

/-- Every visit of a run keeps the names narrow and lists narrow references. -/
theorem Drains.isNarrow {state final : RunState} {s s' : σ} {visits : List Visit}
    (hdrains : context.Drains state s visits final s') (hisa : context.isa = .x86 .bits32)
    (habsolute : Isa.X86.RefersAbsolutely .bits32 (context.decoders.x86 .bits32))
    (hsize : context.provider.pointerSize = 4) (hnames : state.names.NamesNarrowly) :
    (∀ visit ∈ visits, ∀ instruction ∈ visit.outcome.listing.instructions,
      instruction.RefersNarrowly) ∧ final.names.NamesNarrowly := by
  induction hdrains with
  | idle => exact ⟨fun _ hmem => absurd hmem List.not_mem_nil, hnames⟩
  | @visit state final s s' s'' scheduler item outcome visits _ hlist _ ih =>
    obtain ⟨hlisting, hnames'⟩ := isNarrow_listMethod hisa habsolute hsize hnames item s
    rw [hlist] at hlisting hnames'
    obtain ⟨hothers, hfinal⟩ := ih hnames'
    exact ⟨List.forall_mem_cons.2 ⟨hlisting, hothers⟩, hfinal⟩

end Context

namespace Disassembler

/-- The instruction set and the decoders of a run are those of the disassembler. -/
theorem isa_eq_of_context {disassembler disassembler' : Disassembler} {provider : Provider σ}
    {sourceOf : Option (SourceLocator σ)} {context : Context σ}
    (h : disassembler.context provider sourceOf = .ok (context, disassembler')) :
    Isa.ofArchitecture disassembler.decoders provider.architecture = .ok context.isa ∧
      context.decoders = disassembler.decoders := by
  unfold Disassembler.context at h
  cases hisa : Isa.ofArchitecture disassembler.decoders provider.architecture with
  | error error =>
    rw [hisa] at h
    cases h
  | ok isa =>
    rw [hisa] at h
    cases h
    exact ⟨rfl, rfl⟩

/-- Whatever operands an instruction of 32-bit code has, as long as none counts from the next
instruction, it refers to an address of 32 bits or to none.  Hence, with any decoder that finds no
such operand, a run over a 32-bit x86 process succeeds as soon as the decoder can be set up, every
address that an instruction of its listings refers to has 32 bits, and so has every address that is
named. -/
theorem run_addresses_narrow :
    (∀ insn : Isa.X86.Insn, (∀ operand ∈ insn.operands, operand.countsFromNext = false) →
      ∀ address, (insn.reference .bits32).address = some address → address.toNat < UInt32.size) ∧
    ∀ (provider : Provider σ) (disassembler : Disassembler) (entry : Method)
      (sourceOf : Option (SourceLocator σ)) (s : σ), provider.architecture = .x86 →
      Isa.X86.RefersAbsolutely .bits32 (disassembler.decoders.x86 .bits32) →
      match disassembler.decoders.fault? (.x86 .bits32) with
      | some reason =>
        (disassembler.run provider entry sourceOf).run s =
          ((.error (.decoder reason), disassembler), s)
      | none =>
        ∃ disassembly disassembler' s',
          (disassembler.run provider entry sourceOf).run s =
            ((.ok disassembly, disassembler'), s') ∧
          (∀ listing ∈ disassembly.listings, ∀ instruction ∈ listing.instructions,
            ∀ address, instruction.reference = some address → address.toNat < UInt32.size) ∧
          ∀ named ∈ disassembly.names.entries, named.1.toNat < UInt32.size := by
  refine ⟨fun insn hnext address h => Isa.X86.Insn.isNarrow_reference hnext h, ?_⟩
  intro provider disassembler entry sourceOf s harchitecture habsolute
  have hset : Isa.ofArchitecture disassembler.decoders provider.architecture =
      disassembler.decoders.ready (.x86 .bits32) := by
    rw [harchitecture]
    rfl
  cases hfault : disassembler.decoders.fault? (.x86 .bits32) with
  | some reason =>
    have hfail : disassembler.context provider sourceOf = .error (.decoder reason) := by
      unfold Disassembler.context
      rw [hset, Isa.Decoders.ready, hfault]
      rfl
    unfold run
    rw [hfail]
    rfl
  | none =>
    have hready : Isa.ofArchitecture disassembler.decoders provider.architecture =
        .ok (.x86 .bits32) := by
      rw [hset, Isa.Decoders.ready, hfault]
    rcases context_cases disassembler provider sourceOf with
      ⟨error, herror⟩ | ⟨context, disassembler', hcontext, hprovider, -⟩
    · rw [hready] at herror
      cases herror
    obtain ⟨hisa, hdecoders⟩ := isa_eq_of_context hcontext
    rw [hready] at hisa
    have hsize : context.provider.pointerSize = 4 := by
      unfold Provider.pointerSize
      rw [hprovider, harchitecture]
      rfl
    have hstart : (entryState disassembler.settings entry).names.NamesNarrowly := by
      intro address name h
      cases h
    rw [← hdecoders] at habsolute
    obtain ⟨visits, final, s', hdrains⟩ :=
      context.exists_drains (entryState disassembler.settings entry) s
    obtain ⟨hlistings, hnames⟩ :=
      hdrains.isNarrow (Except.ok.inj hisa).symm habsolute hsize hstart
    refine ⟨_, disassembler', s', run_eq_of_drains hcontext hdrains, ?_, ?_⟩
    · intro listing hlisting
      obtain ⟨visit, hvisit, rfl⟩ :=
        List.mem_map.1 ((withoutWrappers_sublist _).subset hlisting)
      exact hlistings visit hvisit
    · rintro ⟨address, name⟩ hmem
      exact hnames address name (NameMap.mem_entries_iff.1 hmem)

end Disassembler

/-! ## Code above 32 bits -/

namespace WideCode

/-- A method whose code lies above the first 32 bits. -/
def method : Method where
  signature := "A.Run()"
  typeName := ""
  nativeCode := 0x100000000
  descriptor := 0
  compilation := .jitted
  isPInvoke := false
  hasIl := true
  codeRanges := [⟨0x100000000, 19⟩]

/-- A negative value is pushed; a helper is called through a cell; a call leaves the first 32 bits;
the accumulator is loaded from a negative displacement. -/
def code : List UInt8 :=
  [0x6A, 0xF0, 0xFF, 0x15, 0x00, 0x00, 0x02, 0x00, 0xE8, 0x00, 0x00, 0x04, 0x00,
    0xA1, 0xF8, 0xFF, 0xFF, 0xFF, 0xC3]

/-- The code, and the cell with the address of the helper. -/
def memory : List MemoryRegion :=
  [⟨0x20000, [0x00, 0x00, 0x03, 0x00]⟩, ⟨0x100000000, code⟩]

/-- A snapshot of a 32-bit process with this memory and the method. -/
def index : SnapshotIndex where
  snapshot := {
    architecture := .x86
    os := .linux
    pageSize := 4096
    version := ⟨8, 0, 0⟩
    methods := [method]
    helpers := [⟨0x30000, "App.Help"⟩]
    tables := []
    memory := memory
    sources := [] }
  regions := memory.toArray

/-- The disassembler with the settings that are used if none are given. -/
def disassembler : Disassembler where
  settings := {}
  decoders := .builtIn

/-- The first instruction of the code: a byte below zero is pushed. -/
def push : Isa.X86.Insn where
  address := 0x100000000
  length := 2
  mnemonic := "push"
  operands := [.immediate 0xFFFFFFFFFFFFFFF0 .dword true]
  isBranch := false

end WideCode

namespace Disassembler

/-- Code above the first 32 bits refers to addresses of 32 bits: by a value, through a cell, by a
branch and by a displacement. -/
theorem run_addresses_narrow_of_wide_code :
    (∀ operand ∈ WideCode.push.operands, operand.countsFromNext = false) ∧
    (∀ address, (WideCode.push.reference .bits32).address = some address →
      address.toNat < UInt32.size) ∧
    ((Isa.x86 .bits32).decode .builtIn 0xFFFF 0x100000000 WideCode.code).map (·.reference) =
      [some 0xFFFFFFF0, some 0x20000, some 0x4000D, some 0xFFFFFFF8, none] ∧
    (WideCode.index.provider Unit).architecture = .x86 ∧
    Isa.X86.RefersAbsolutely .bits32 (WideCode.disassembler.decoders.x86 .bits32) ∧
    ∃ disassembly disassembler' s',
      (WideCode.disassembler.run (WideCode.index.provider Unit) WideCode.method none).run () =
        ((.ok disassembly, disassembler'), s') ∧
      (∀ listing ∈ disassembly.listings, ∀ instruction ∈ listing.instructions,
        ∀ address, instruction.reference = some address → address.toNat < UInt32.size) ∧
      ∀ named ∈ disassembly.names.entries, named.1.toNat < UInt32.size := by
  have hpush : ∀ operand ∈ WideCode.push.operands, operand.countsFromNext = false :=
    List.forall_mem_singleton.2 rfl
  refine ⟨hpush, (run_addresses_narrow (σ := Unit)).1 WideCode.push hpush, by decide +kernel, rfl,
    Isa.X86.refersAbsolutely_decoder, ?_⟩
  exact run_addresses_narrow.2 (WideCode.index.provider Unit) WideCode.disassembler WideCode.method
    none () rfl Isa.X86.refersAbsolutely_decoder

end Disassembler

end CodeListing
