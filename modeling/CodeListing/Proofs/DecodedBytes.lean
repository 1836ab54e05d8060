import CodeListing.Proofs.InstructionStream

/-!
# A stream of instructions accounts for its bytes

However valid instructions of different lengths and invalid markers take turns, a stream goes on
where its last instruction ended.  So its instructions are the bytes, cut into pieces: in order,
with nothing left out but a tail that is too short for an instruction, and each at the address where
its bytes lie.  All that matters about the decoder is that what it finds is a front part of the
bytes with a length that the instruction set has (`Decoder.Fits`); the decoders of this library are
such.
-/

set_option autoImplicit false

namespace CodeListing

/-- The number of bytes that the instructions say they have. -/
def Instruction.totalLength : List Instruction → Nat
  | [] => 0
  | first :: behind => first.length.toNat + totalLength behind

namespace Isa

/-- An instruction of the set can have so many bytes: any number but none on x86, four on Arm64. -/
def AllowsLength : Isa → Nat → Prop
  | .x86 _, length => 0 < length
  | .arm64, length => length = 4

/-- The bytes that become instructions: all of them on x86, and on Arm64 the longest front part that
is made of words. -/
def wholePart : Isa → List UInt8 → List UInt8
  | .x86 _, bytes => bytes
  | .arm64, bytes => bytes.take (bytes.length - bytes.length % 4)

/-- An instruction can have the least number of bytes. -/
theorem allowsLength_minLength (isa : Isa) : isa.AllowsLength isa.minLength := by
  cases isa with
  | x86 mode => exact Nat.one_pos
  | arm64 => rfl

/-- No instruction has fewer bytes than the least number. -/
theorem AllowsLength.minLength_le {isa : Isa} {length : Nat} (h : isa.AllowsLength length) :
    isa.minLength ≤ length := by
  cases isa with
  | x86 mode => exact h
  | arm64 => exact Nat.le_of_eq h.symm

/-- No instruction is without bytes. -/
theorem AllowsLength.pos {isa : Isa} {length : Nat} (h : isa.AllowsLength length) : 0 < length :=
  Nat.lt_of_lt_of_le isa.minLength_pos h.minLength_le

/-- The least number of bytes fits the field for lengths. -/
theorem minLength_lt_size (isa : Isa) : isa.minLength < UInt32.size := by
  have hone : 1 < UInt32.size := by decide
  have hfour : 4 < UInt32.size := by decide
  cases isa with
  | x86 mode => exact hone
  | arm64 => exact hfour

/-- Too few bytes for an instruction have no part that becomes instructions. -/
theorem wholePart_of_short {isa : Isa} {bytes : List UInt8} (h : bytes.length < isa.minLength) :
    isa.wholePart bytes = [] := by
  cases isa with
  | x86 mode => exact List.length_eq_zero_iff.1 (Nat.lt_one_iff.1 h)
  | arm64 =>
    have hmod : bytes.length % 4 = bytes.length := Nat.mod_eq_of_lt h
    rw [wholePart, hmod, Nat.sub_self, List.take_zero]

/-- Cutting an instruction off in front takes it off the part that becomes instructions. -/
theorem take_append_wholePart {isa : Isa} {bytes : List UInt8} {length : Nat}
    (hallows : isa.AllowsLength length) (hle : length ≤ bytes.length) :
    bytes.take length ++ isa.wholePart (bytes.drop length) = isa.wholePart bytes := by
  cases isa with
  | x86 mode => exact List.take_append_drop length bytes
  | arm64 =>
    obtain rfl : length = 4 := hallows
    have hsplit : bytes.length - bytes.length % 4 =
        4 + (bytes.length - 4 - (bytes.length - 4) % 4) := by omega
    rw [wholePart, wholePart, List.length_drop, hsplit, List.take_add]

/-! ## Instructions cut from bytes -/

/-- The instruction is the front part of the bytes at an address. -/
structure TakesFront (isa : Isa) (threshold address : UInt64) (bytes : List UInt8)
    (instruction : Instruction) : Prop where
  plain : instruction.Plain threshold
  address_eq : instruction.address = address
  bytes_eq : instruction.bytes = bytes.take instruction.length.toNat
  length_le : instruction.length.toNat ≤ bytes.length
  allows : isa.AllowsLength instruction.length.toNat
  length_of_invalid : instruction.isInvalid = true → instruction.length.toNat = isa.minLength

/-- The instructions are the bytes at an address, cut into pieces until too few are left. -/
inductive Cuts (isa : Isa) (threshold : UInt64) : UInt64 → List UInt8 → List Instruction → Prop
  | done {address : UInt64} {bytes : List UInt8} (hshort : bytes.length < isa.minLength) :
      Cuts isa threshold address bytes []
  | more {address : UInt64} {bytes : List UInt8} {first : Instruction} {behind : List Instruction}
      (hfirst : isa.TakesFront threshold address bytes first)
      (hbehind : Cuts isa threshold (address + UInt64.ofNat first.length.toNat)
        (bytes.drop first.length.toNat) behind) :
      Cuts isa threshold address bytes (first :: behind)

/-- What the instructions of a stream have to do with its bytes. -/
structure Accounts (isa : Isa) (threshold base : UInt64) (bytes : List UInt8)
    (instructions : List Instruction) : Prop where
  bytes_eq : instructions.flatMap (·.bytes) = isa.wholePart bytes
  address_eq : ∀ k instruction, instructions[k]? = some instruction →
    instruction.address = base + UInt64.ofNat (Instruction.totalLength (instructions.take k))
  length_eq : ∀ instruction ∈ instructions,
    instruction.length.toNat = instruction.bytes.length ∧
      isa.minLength ≤ instruction.length.toNat
  of_invalid : ∀ instruction ∈ instructions, instruction.isInvalid = true →
    instruction.bytes.length = isa.minLength ∧ instruction.reference = none
  above : ∀ instruction ∈ instructions, ∀ address, instruction.reference = some address →
    threshold < address

namespace Cuts

variable {isa : Isa} {threshold address : UInt64} {bytes : List UInt8}
  {instructions : List Instruction}

/-- The bytes of the pieces, one after the other, are the part that becomes instructions. -/
theorem flatMap_bytes (h : isa.Cuts threshold address bytes instructions) :
    instructions.flatMap (·.bytes) = isa.wholePart bytes := by
  induction h with
  | done hshort => exact (wholePart_of_short hshort).symm
  | more hfirst _ ih =>
    rw [List.flatMap_cons, ih, hfirst.bytes_eq]
    exact take_append_wholePart hfirst.allows hfirst.length_le

/-- Each piece lies behind those in front of it. -/
theorem address_eq (h : isa.Cuts threshold address bytes instructions) {k : Nat}
    {instruction : Instruction} (hget : instructions[k]? = some instruction) :
    instruction.address =
      address + UInt64.ofNat (Instruction.totalLength (instructions.take k)) := by
  induction h generalizing k with
  | done => simp at hget
  | @more address bytes first behind hfirst _ ih =>
    cases k with
    | zero =>
      obtain rfl : first = instruction := by simpa using hget
      rw [hfirst.address_eq]
      exact (UInt64.add_zero address).symm
    | succ k =>
      rw [List.getElem?_cons_succ] at hget
      rw [ih hget, List.take_succ_cons, Instruction.totalLength, UInt64.ofNat_add,
        UInt64.add_assoc]

/-- Each piece is the front part of the bytes at some address. -/
theorem exists_takesFront (h : isa.Cuts threshold address bytes instructions)
    {instruction : Instruction} (hmem : instruction ∈ instructions) :
    ∃ address' bytes', isa.TakesFront threshold address' bytes' instruction := by
  induction h with
  | done => cases hmem
  | more hfirst _ ih =>
    obtain rfl | hmem := List.mem_cons.1 hmem
    · exact ⟨_, _, hfirst⟩
    · exact ih hmem

/-- Pieces that are cut off one after the other account for the bytes. -/
theorem accounts (h : isa.Cuts threshold address bytes instructions) :
    isa.Accounts threshold address bytes instructions := by
  have hlength : ∀ instruction ∈ instructions,
      instruction.length.toNat = instruction.bytes.length ∧
        isa.minLength ≤ instruction.length.toNat := by
    intro instruction hmem
    obtain ⟨_, _, htakes⟩ := h.exists_takesFront hmem
    refine ⟨?_, htakes.allows.minLength_le⟩
    rw [htakes.bytes_eq, List.length_take_of_le htakes.length_le]
  refine ⟨h.flatMap_bytes, fun _ _ => h.address_eq, hlength, ?_, ?_⟩
  · intro instruction hmem hinvalid
    obtain ⟨_, _, htakes⟩ := h.exists_takesFront hmem
    rw [← (hlength instruction hmem).1]
    exact ⟨htakes.length_of_invalid hinvalid, htakes.plain.reference_of_invalid hinvalid⟩
  · intro instruction hmem
    obtain ⟨_, _, htakes⟩ := h.exists_takesFront hmem
    exact htakes.plain.above

end Cuts

/-! ## Streams -/

namespace Decoder

variable {τ : Type} (decoder : Decoder τ) (threshold base : UInt64)

/-- A decoder for the instruction set: what it finds is a front part of the bytes, with a length
that the set allows.  The length is told in 32 bits, and no real encoding comes near that. -/
structure Fits (isa : Isa) : Prop where
  minLength_eq : decoder.minLength = isa.minLength
  length_le : ∀ {memory memory' : τ} {address : UInt64} {bytes : List UInt8} {found : Found},
    decoder.decode memory address bytes = some (found, memory') → found.length ≤ bytes.length
  allows : ∀ {memory memory' : τ} {address : UInt64} {bytes : List UInt8} {found : Found},
    decoder.decode memory address bytes = some (found, memory') → isa.AllowsLength found.length
  length_lt : ∀ {memory memory' : τ} {address : UInt64} {bytes : List UInt8} {found : Found},
    decoder.decode memory address bytes = some (found, memory') → found.length < UInt32.size

/-- The instruction at the start of the bytes, or an invalid marker, and what to remember. -/
def first (memory : τ) (address : UInt64) (bytes : List UInt8) : Instruction × τ :=
  let marker := Instruction.invalid address (bytes.take decoder.minLength)
  match decoder.decode memory address bytes with
  | none => (marker, memory)
  | some (found, memory') =>
    let instruction := found.toInstruction threshold address bytes
    (if 0 < instruction.length then instruction else marker, memory')

/-- How far a stream has come. -/
structure Cursor (τ : Type) where
  /-- What is remembered. -/
  memory : τ
  /-- The number of bytes in front of the next instruction. -/
  offset : Nat

/-- The next instruction of the bytes at the base address, if enough of them are left. -/
def next (bytes : List UInt8) (cursor : Cursor τ) : Option (Instruction × Cursor τ) :=
  let remaining := bytes.drop cursor.offset
  if remaining.length < decoder.minLength then none
  else
    let (instruction, memory) :=
      decoder.first threshold cursor.memory (base + UInt64.ofNat cursor.offset) remaining
    some (instruction, ⟨memory, cursor.offset + instruction.length.toNat⟩)

/-- Asked again and again, the stream hands out these instructions and then says that it has no
more. -/
inductive Yields (bytes : List UInt8) : Cursor τ → List Instruction → Prop
  | done {cursor : Cursor τ} (hnext : decoder.next threshold base bytes cursor = none) :
      Yields bytes cursor []
  | more {cursor cursor' : Cursor τ} {instruction : Instruction} {behind : List Instruction}
      (hnext : decoder.next threshold base bytes cursor = some (instruction, cursor'))
      (hbehind : Yields bytes cursor' behind) : Yields bytes cursor (instruction :: behind)

variable {decoder threshold base}

/-- Where nothing is decoded, the first instruction is invalid and nothing new is remembered. -/
theorem first_of_none {memory : τ} {address : UInt64} {bytes : List UInt8}
    (hdecode : decoder.decode memory address bytes = none) :
    decoder.first threshold memory address bytes =
      (.invalid address (bytes.take decoder.minLength), memory) := by
  simp only [first, hdecode]

/-- With too few bytes left the stream has no more instructions. -/
theorem next_of_short {bytes : List UInt8} {cursor : Cursor τ}
    (hshort : (bytes.drop cursor.offset).length < decoder.minLength) :
    decoder.next threshold base bytes cursor = none :=
  if_pos hshort

/-- With enough bytes left the stream hands out the first instruction of them and passes it. -/
theorem next_of_long {bytes : List UInt8} {cursor : Cursor τ}
    (hlong : ¬ (bytes.drop cursor.offset).length < decoder.minLength) :
    decoder.next threshold base bytes cursor =
      some ((decoder.first threshold cursor.memory (base + UInt64.ofNat cursor.offset)
          (bytes.drop cursor.offset)).1,
        ⟨(decoder.first threshold cursor.memory (base + UInt64.ofNat cursor.offset)
          (bytes.drop cursor.offset)).2,
          cursor.offset + (decoder.first threshold cursor.memory
            (base + UInt64.ofNat cursor.offset)
            (bytes.drop cursor.offset)).1.length.toNat⟩) :=
  if_neg hlong

namespace Fits

variable {isa : Isa} (h : decoder.Fits isa)

include h

/-- A decoded instruction is as long as the decoder says. -/
theorem toNat_length_toInstruction {memory memory' : τ} {address : UInt64} {bytes : List UInt8}
    {found : Found} (hdecode : decoder.decode memory address bytes = some (found, memory')) :
    (found.toInstruction threshold address bytes).length.toNat = found.length := by
  show (UInt32.ofNat found.length).toNat = found.length
  rw [UInt32.toNat_ofNat']
  exact Nat.mod_eq_of_lt (h.length_lt hdecode)

/-- An invalid instruction has the least number of bytes. -/
theorem toNat_length_invalid (address : UInt64) {bytes : List UInt8}
    (hlong : isa.minLength ≤ bytes.length) :
    (Instruction.invalid address (bytes.take decoder.minLength)).length.toNat = isa.minLength := by
  show (UInt32.ofNat (bytes.take decoder.minLength).length).toNat = isa.minLength
  rw [h.minLength_eq, List.length_take_of_le hlong, UInt32.toNat_ofNat']
  exact Nat.mod_eq_of_lt isa.minLength_lt_size

/-- What a decoder for the instruction set finds is never empty, so it is handed out. -/
theorem first_of_some {memory memory' : τ} {address : UInt64} {bytes : List UInt8} {found : Found}
    (hdecode : decoder.decode memory address bytes = some (found, memory')) :
    decoder.first threshold memory address bytes =
      (found.toInstruction threshold address bytes, memory') := by
  have hpos : 0 < (found.toInstruction threshold address bytes).length := by
    rw [UInt32.lt_iff_toNat_lt, h.toNat_length_toInstruction hdecode]
    exact (h.allows hdecode).pos
  simp only [first, hdecode, if_pos hpos]

/-- The first instruction of enough bytes is their front part. -/
theorem takesFront_first (memory : τ) (address : UInt64) {bytes : List UInt8}
    (hlong : isa.minLength ≤ bytes.length) :
    isa.TakesFront threshold address bytes (decoder.first threshold memory address bytes).1 := by
  cases hdecode : decoder.decode memory address bytes with
  | none =>
    have hlength := h.toNat_length_invalid address hlong
    rw [first_of_none hdecode]
    refine ⟨plain_invalid _ _ _, rfl, ?_, ?_, ?_, fun _ => hlength⟩
    · rw [hlength, ← h.minLength_eq]
      rfl
    · rwa [hlength]
    · rw [hlength]
      exact isa.allowsLength_minLength
  | some result =>
    obtain ⟨found, memory'⟩ := result
    have hlength : (found.toInstruction threshold address bytes).length.toNat = found.length :=
      h.toNat_length_toInstruction hdecode
    rw [h.first_of_some hdecode]
    refine ⟨found.plain_toInstruction _ _ bytes, rfl, ?_, ?_, ?_, nofun⟩
    · rw [hlength]
      rfl
    · rw [hlength]
      exact h.length_le hdecode
    · rw [hlength]
      exact h.allows hdecode

/-- The stream of enough bytes is their first instruction and the stream of what is behind it. -/
theorem streamFrom_eq_cons (memory : τ) (address : UInt64) {bytes : List UInt8}
    (hlong : isa.minLength ≤ bytes.length) :
    decoder.streamFrom threshold memory address bytes =
      (decoder.first threshold memory address bytes).1 ::
        decoder.streamFrom threshold (decoder.first threshold memory address bytes).2
          (address + UInt64.ofNat (decoder.first threshold memory address bytes).1.length.toNat)
          (bytes.drop (decoder.first threshold memory address bytes).1.length.toNat) := by
  have hnot : ¬ (bytes.take decoder.minLength).length < decoder.minLength := by
    rw [h.minLength_eq, List.length_take_of_le hlong]
    exact Nat.lt_irrefl _
  rw [streamFrom, dif_neg hnot]
  cases hdecode : decoder.decode memory address bytes with
  | none =>
    rw [first_of_none hdecode]
    dsimp only
    rw [h.toNat_length_invalid address hlong, h.minLength_eq]
  | some result =>
    obtain ⟨found, memory'⟩ := result
    have hpos : 0 < found.length := (h.allows hdecode).pos
    rw [h.first_of_some hdecode]
    dsimp only
    rw [dif_pos hpos, h.toNat_length_toInstruction hdecode]

/-- From wherever it stands, a stream hands out what decoding the remaining bytes gives. -/
theorem yields_streamFrom (bytes : List UInt8) (memory : τ) (offset : Nat) :
    decoder.Yields threshold base bytes ⟨memory, offset⟩
      (decoder.streamFrom threshold memory (base + UInt64.ofNat offset) (bytes.drop offset)) := by
  induction hn : (bytes.drop offset).length using Nat.strongRecOn generalizing memory offset with
  | _ n ih =>
    by_cases hshort : (bytes.drop offset).length < decoder.minLength
    · rw [decoder.streamFrom_of_short threshold memory _ hshort]
      exact .done (next_of_short hshort)
    · have hlong : isa.minLength ≤ (bytes.drop offset).length := by
        rw [← h.minLength_eq]
        exact Nat.le_of_not_lt hshort
      have htakes : isa.TakesFront threshold _ _ (decoder.first threshold memory
          (base + UInt64.ofNat offset) (bytes.drop offset)).1 :=
        h.takesFront_first memory _ hlong
      rw [h.streamFrom_eq_cons memory _ hlong]
      refine .more (next_of_long hshort) ?_
      rw [UInt64.add_assoc, ← UInt64.ofNat_add, List.drop_drop]
      refine ih _ ?_ _ _ rfl
      have hpos := htakes.allows.pos
      have hle := htakes.length_le
      dsimp only
      rw [List.length_drop] at hn hle ⊢
      omega

/-- What the stream hands out from a cursor on are the bytes behind it, cut into pieces. -/
theorem cuts_of_yields {bytes : List UInt8} {cursor : Cursor τ} {instructions : List Instruction}
    (hyields : decoder.Yields threshold base bytes cursor instructions) :
    isa.Cuts threshold (base + UInt64.ofNat cursor.offset) (bytes.drop cursor.offset)
      instructions := by
  induction hyields with
  | @done cursor hnext =>
    by_cases hshort : (bytes.drop cursor.offset).length < decoder.minLength
    · rw [h.minLength_eq] at hshort
      exact .done hshort
    · rw [next_of_long hshort] at hnext
      cases hnext
  | @more cursor cursor' instruction behind hnext _ ih =>
    by_cases hshort : (bytes.drop cursor.offset).length < decoder.minLength
    · rw [next_of_short hshort] at hnext
      cases hnext
    · rw [next_of_long hshort] at hnext
      cases hnext
      rw [h.minLength_eq] at hshort
      refine .more (h.takesFront_first cursor.memory _ (Nat.le_of_not_lt hshort)) ?_
      rw [UInt64.add_assoc, ← UInt64.ofNat_add, List.drop_drop]
      exact ih

/-- A stream ends, and accounts for its bytes. -/
theorem yields_and_accounts (bytes : List UInt8) :
    decoder.Yields threshold base bytes ⟨decoder.start, 0⟩
        (decoder.stream threshold base bytes) ∧
      isa.Accounts threshold base bytes (decoder.stream threshold base bytes) := by
  have hyields : decoder.Yields threshold base bytes ⟨decoder.start, 0⟩
      (decoder.streamFrom threshold decoder.start (base + UInt64.ofNat 0) bytes) :=
    h.yields_streamFrom bytes decoder.start 0
  have hcuts := h.cuts_of_yields hyields
  rw [show base + UInt64.ofNat 0 = base from UInt64.add_zero base] at hyields hcuts
  exact ⟨hyields, hcuts.accounts⟩

end Fits

end Decoder

/-! ## The decoders of the instruction sets -/

namespace X86

/-- What the reader leaves is no longer than what it was given. -/
def Scan.Shortens {α : Type} (scan : Scan α) : Prop :=
  ∀ bytes a rest, scan.run bytes = some (a, rest) → rest.length ≤ bytes.length

namespace Scan.Shortens

variable {α β : Type}

/-- A reader that only returns leaves what it was given. -/
theorem pure (a : α) : (Pure.pure a : Scan α).Shortens := by
  intro bytes a' rest h
  cases h
  exact Nat.le_refl _

/-- A reader that fails does not lengthen what is left. -/
theorem failure : (Alternative.failure : Scan α).Shortens := by
  intro bytes a rest h
  cases h

/-- If neither of two readers lengthens what is left, neither do both one after the other. -/
theorem bind {first : Scan α} {next : α → Scan β} (h : first.Shortens)
    (hnext : ∀ a, (next a).Shortens) : (first >>= next).Shortens := by
  intro bytes b rest hrun
  rw [StateT.run_bind] at hrun
  obtain ⟨⟨a, middle⟩, hfirst, hrest⟩ := Option.bind_eq_some_iff.1 hrun
  exact Nat.le_trans (hnext a middle b rest hrest) (h bytes a middle hfirst)

/-- If neither of two readers lengthens what is left, neither does the choice. -/
theorem ite {condition : Prop} [Decidable condition] {yes no : Scan α} (hyes : yes.Shortens)
    (hno : no.Shortens) : (if condition then yes else no).Shortens := by
  split
  · exact hyes
  · exact hno

end Scan.Shortens

/-- Reading a byte leaves fewer bytes. -/
theorem length_byte {bytes rest : List UInt8} {n : Nat} (h : Scan.byte.run bytes = some (n, rest)) :
    rest.length < bytes.length := by
  cases bytes with
  | nil => cases h
  | cons b bytes =>
    cases h
    exact Nat.lt_succ_self _

/-- Reading a byte does not lengthen what is left. -/
theorem shortens_byte : Scan.byte.Shortens :=
  fun _ _ _ h => Nat.le_of_lt (length_byte h)

/-- Reading a number does not lengthen what is left. -/
theorem shortens_number (count : Nat) : (Scan.number count).Shortens := by
  intro bytes n rest h
  simp only [Scan.number, StateT.run] at h
  split at h
  · cases h
  · cases h
    rw [List.length_drop]
    exact Nat.sub_le _ _

/-- Reading a signed number does not lengthen what is left. -/
theorem shortens_signed (count : Nat) : (Scan.signed count).Shortens :=
  .bind (shortens_number count) fun _ => .pure _

/-- Reading an immediate value does not lengthen what is left. -/
theorem shortens_immediate (count : Nat) (width : Width) (signed : Bool) :
    (immediate count width signed).Shortens :=
  .bind (shortens_number count) fun _ => .ite (.pure _) (.pure _)

/-- Reading the distance of a branch does not lengthen what is left. -/
theorem shortens_relativeBranch (mnemonic : String) (count : Nat) :
    (relativeBranch mnemonic count).Shortens :=
  .bind (shortens_signed count) fun _ => .pure _

/-- Reading a scaled index does not lengthen what is left. -/
theorem shortens_scaledIndex (modifiers : Modifiers) (width : Width) (mod : Nat) :
    (scaledIndex modifiers width mod).Shortens :=
  .bind shortens_byte fun _ => .ite (.pure _) (.pure _)

/-- Reading a displacement does not lengthen what is left. -/
theorem shortens_displacement (mod : Nat) (base : Base) : (displacement mod base).Shortens := by
  refine .ite (shortens_signed 1) (.ite (shortens_signed 4) ?_)
  split
  · exact .pure _
  · exact shortens_signed 4

/-- Reading an operand byte and its place does not lengthen what is left. -/
theorem shortens_operandByte (mode : Mode) (modifiers : Modifiers) :
    (operandByte mode modifiers).Shortens := by
  refine .bind shortens_byte fun b => .ite (.pure _) ?_
  refine .ite (.bind (shortens_scaledIndex _ _ _) fun _ => ?_)
    (.ite (.bind (.pure _) fun _ => ?_) (.bind (.pure _) fun _ => ?_))
  -- However base and index are found, the displacement follows.
  all_goals exact .bind (shortens_displacement _ _) fun _ => .pure _

/-- Reading behind an opcode of two bytes does not lengthen what is left. -/
theorem shortens_longOpcode (mode : Mode) (modifiers : Modifiers) :
    (longOpcode mode modifiers).Shortens := by
  have hoperand := shortens_operandByte mode modifiers
  refine .bind shortens_byte fun opcode => .ite ?_ (.ite ?_ (.ite ?_ .failure))
  · exact .bind hoperand fun _ => .ite (.pure _) .failure
  · exact shortens_relativeBranch _ _
  · exact .bind hoperand fun _ => .pure _

/-- Reading behind the opcode of indirect transfers does not lengthen what is left. -/
theorem shortens_transferGroup (mode : Mode) (modifiers : Modifiers) :
    (transferGroup mode modifiers).Shortens := by
  refine .bind (shortens_operandByte mode modifiers) fun o => ?_
  dsimp only
  split
  · exact .pure _
  · exact .pure _
  · exact .pure _
  · exact .pure _
  · exact .pure _
  · exact .failure

/-- Reading behind an opcode with an operand byte does not lengthen what is left. -/
theorem shortens_operandOpcode (mode : Mode) (modifiers : Modifiers) (opcode : Nat) :
    (operandOpcode mode modifiers opcode).Shortens := by
  refine .bind (shortens_operandByte mode modifiers) fun o => ?_
  dsimp only
  split
  · exact .ite (.pure _) .failure
  · exact .ite (.bind (shortens_immediate _ _ _) fun _ => .pure _) .failure
  · exact .bind (shortens_immediate _ _ _) fun _ => .pure _
  · exact .bind (shortens_immediate _ _ _) fun _ => .pure _
  · exact .pure _
  · exact .pure _
  · exact .pure _
  · split
    · exact .pure _
    · exact .failure
  · exact .ite (.bind (shortens_immediate _ _ _) fun _ => .pure _) .failure
  · exact .failure

/-- Reading behind an opcode of arithmetic does not lengthen what is left. -/
theorem shortens_arithmeticOpcode (mode : Mode) (modifiers : Modifiers) (opcode : Nat) :
    (arithmeticOpcode mode modifiers opcode).Shortens := by
  have hoperand := shortens_operandByte mode modifiers
  unfold arithmeticOpcode
  dsimp only
  split
  · exact .ite (.bind hoperand fun _ => .pure _) .failure
  · exact .bind hoperand fun _ => .pure _
  · exact .bind hoperand fun _ => .pure _
  · exact .bind (shortens_immediate _ _ _) fun _ => .pure _
  · exact .failure

/-- Reading the offset of a memory cell does not lengthen what is left. -/
theorem shortens_offsetMove (mode : Mode) (modifiers : Modifiers) (store : Bool) :
    (offsetMove mode modifiers store).Shortens :=
  .bind (shortens_number _) fun _ => .pure _

/-- Reading behind an opcode without operand byte does not lengthen what is left. -/
theorem shortens_shortOpcode (mode : Mode) (modifiers : Modifiers) (opcode : Nat) :
    (shortOpcode mode modifiers opcode).Shortens := by
  refine .ite (.pure _) (.ite (.pure _) (.ite (.pure _) (.ite (.pure _)
    (.ite (shortens_relativeBranch _ _) (.ite ?_ ?_)))))
  · exact .bind (shortens_immediate _ _ _) fun _ => .pure _
  · split
    · exact .bind (shortens_immediate _ _ _) fun _ => .pure _
    · exact .bind (shortens_immediate _ _ _) fun _ => .pure _
    · exact .pure _
    · exact .pure _
    · exact shortens_offsetMove _ _ _
    · exact shortens_offsetMove _ _ _
    · exact .bind (shortens_immediate _ _ _) fun _ => .pure _
    · exact .pure _
    · exact .pure _
    · exact .pure _
    · exact shortens_relativeBranch _ _
    · exact shortens_relativeBranch _ _
    · exact shortens_relativeBranch _ _
    · exact shortens_relativeBranch _ _
    · exact shortens_relativeBranch _ _
    · exact shortens_relativeBranch _ _
    · exact shortens_relativeBranch _ _
    · exact .failure

/-- An opcode takes at least one byte. -/
theorem length_body {mode : Mode} {modifiers : Modifiers} {bytes rest : List UInt8} {found : Body}
    (h : (body mode modifiers).run bytes = some (found, rest)) : rest.length < bytes.length := by
  rw [body, StateT.run_bind] at h
  obtain ⟨⟨opcode, middle⟩, hopcode, hrest⟩ := Option.bind_eq_some_iff.1 h
  refine Nat.lt_of_le_of_lt ?_ (length_byte hopcode)
  refine Scan.Shortens.ite (shortens_longOpcode _ _) ?_ middle found rest hrest
  refine .ite (shortens_arithmeticOpcode _ _ _) (.ite (shortens_transferGroup _ _) ?_)
  exact .ite (shortens_operandOpcode _ _ _) (shortens_shortOpcode _ _ _)

/-- Taking prefixes from the front does not lengthen the bytes. -/
theorem length_scan (modifiers : Modifiers) (bytes : List UInt8) :
    (modifiers.scan bytes).2.length ≤ bytes.length := by
  fun_induction modifiers.scan bytes with
  | case1 => exact Nat.le_refl _
  | case2 modifiers b rest modifiers' hadd ih => exact Nat.le_succ_of_le ih
  | case3 => exact Nat.le_refl _

/-- Taking extension bytes from the front does not lengthen the bytes. -/
theorem length_scanExtensions (modifiers : Modifiers) (bytes : List UInt8) :
    (modifiers.scanExtensions bytes).2.length ≤ bytes.length := by
  fun_induction modifiers.scanExtensions bytes with
  | case1 => exact Nat.le_refl _
  | case2 modifiers b rest hextends ih => exact Nat.le_succ_of_le ih
  | case3 => exact Nat.le_refl _

/-- Taking all prefixes from the front does not lengthen the bytes. -/
theorem length_scanAll (mode : Mode) (bytes : List UInt8) :
    (Modifiers.scanAll mode bytes).2.length ≤ bytes.length := by
  unfold Modifiers.scanAll
  dsimp only
  split
  · exact Nat.le_trans (length_scanExtensions _ _) (length_scan _ _)
  · exact length_scan _ _

/-- A decoded instruction has at least one byte, no more than there are and no more than the limit.
-/
theorem length_decode {mode : Mode} {address : UInt64} {bytes : List UInt8} {insn : Insn}
    (h : decode mode address bytes = some insn) :
    0 < insn.length ∧ insn.length ≤ bytes.length ∧ insn.length ≤ maxLength := by
  have hle := length_scanAll mode (bytes.take maxLength)
  rcases hscan : Modifiers.scanAll mode (bytes.take maxLength) with ⟨modifiers, rest⟩
  rw [hscan] at hle
  dsimp only at hle
  simp only [decode, hscan] at h
  obtain ⟨⟨found, behind⟩, hbody, hinsn⟩ := Option.bind_eq_some_iff.1 h
  have hlt := length_body hbody
  have hwindow : (bytes.take maxLength).length = min maxLength bytes.length := List.length_take
  have hlength : insn.length = (bytes.take maxLength).length - behind.length := by
    cases hinsn
    rfl
  omega

/-- What the x86 decoder finds has at least one byte, no more than there are and no more than the
limit. -/
theorem length_found {mode : Mode} {memory memory' : Unit} {address : UInt64} {bytes : List UInt8}
    {found : Found} (h : (decoder mode).decode memory address bytes = some (found, memory')) :
    0 < found.length ∧ found.length ≤ bytes.length ∧ found.length ≤ maxLength := by
  obtain ⟨insn, hinsn, hfound⟩ := Option.map_eq_some_iff.1 h
  cases hfound
  exact length_decode hinsn

/-- The x86 decoder fits its instruction set. -/
theorem fits_decoder (mode : Mode) : (decoder mode).Fits (.x86 mode) where
  minLength_eq := rfl
  length_le h := (length_found h).2.1
  allows h := (length_found h).1
  length_lt h := Nat.lt_of_le_of_lt (length_found h).2.2 (by decide)

end X86

namespace Arm64

/-- A word is decoded only from four bytes. -/
theorem length_of_decode {address : UInt64} {bytes : List UInt8} {insn : Insn}
    (h : decode address bytes = some insn) : 4 ≤ bytes.length := by
  by_cases hshort : (bytes.take 4).length < 4
  · simp only [decode, if_pos hshort] at h
    cases h
  · rw [List.length_take] at hshort
    omega

/-- What the Arm64 decoder finds has four bytes, and so many are there. -/
theorem length_found {memory memory' : Facts} {address : UInt64} {bytes : List UInt8}
    {found : Found} (h : decoder.decode memory address bytes = some (found, memory')) :
    found.length = 4 ∧ 4 ≤ bytes.length := by
  obtain ⟨insn, hinsn, hfound⟩ := Option.map_eq_some_iff.1 h
  have hlength : 4 = found.length := congrArg (fun result => result.1.length) hfound
  exact ⟨hlength.symm, length_of_decode hinsn⟩

/-- The Arm64 decoder fits its instruction set. -/
theorem fits_decoder : decoder.Fits .arm64 where
  minLength_eq := rfl
  length_le := by
    intro memory memory' address bytes found h
    rw [(length_found h).1]
    exact (length_found h).2
  allows h := (length_found h).1
  length_lt := by
    intro memory memory' address bytes found h
    rw [(length_found h).1]
    decide

end Arm64

/-- Each instruction set has a decoder that fits it, and its instructions are the stream of this
decoder. -/
theorem exists_decoder_fits (isa : Isa) :
    ∃ (τ : Type) (decoder : Decoder τ), decoder.Fits isa ∧ ∀ threshold address bytes,
      isa.decode .builtIn threshold address bytes = decoder.stream threshold address bytes := by
  cases isa with
  | x86 mode => exact ⟨Unit, X86.decoder mode, X86.fits_decoder mode, fun _ _ _ => rfl⟩
  | arm64 => exact ⟨Arm64.Facts, Arm64.decoder, Arm64.fits_decoder, fun _ _ _ => rfl⟩

/-- With every decoder for an instruction set, a stream hands out finitely many instructions, and
they account for its bytes: joined they are all that can become instructions, each stands where the
earlier ones end, has as many bytes as it says and at least the fewest, and refers to nothing up to
the threshold, or to nothing at all if it is invalid.  So do the instructions that the decoders of
the library give. -/
theorem streams_account_for_bytes (isa : Isa) (threshold base : UInt64) (bytes : List UInt8) :
    (∀ (τ : Type) (decoder : Decoder τ), decoder.Fits isa →
      decoder.Yields threshold base bytes ⟨decoder.start, 0⟩
          (decoder.stream threshold base bytes) ∧
        isa.Accounts threshold base bytes (decoder.stream threshold base bytes)) ∧
    isa.Accounts threshold base bytes (isa.decode .builtIn threshold base bytes) := by
  constructor
  · intro τ decoder hfits
    exact hfits.yields_and_accounts bytes
  · obtain ⟨τ, decoder, hfits, hdecode⟩ := isa.exists_decoder_fits
    rw [hdecode]
    exact (hfits.yields_and_accounts bytes).2

/-- Around the end of the address space, a word that is an instruction, one that is none, and a
tail of one byte. -/
theorem arm64_stream_accounts_for_two_words :
    Arm64.decoder.Fits .arm64 ∧
    Isa.arm64.Accounts 0 0xFFFFFFFFFFFFFFFC
      [0x1f, 0x20, 0x03, 0xd5, 0xff, 0xff, 0xff, 0xff, 0xc0]
      (Arm64.decoder.stream 0 0xFFFFFFFFFFFFFFFC
        [0x1f, 0x20, 0x03, 0xd5, 0xff, 0xff, 0xff, 0xff, 0xc0]) ∧
    (Arm64.decoder.stream 0 0xFFFFFFFFFFFFFFFC
        [0x1f, 0x20, 0x03, 0xd5, 0xff, 0xff, 0xff, 0xff, 0xc0]).map
      (fun instruction => (instruction.address, instruction.validity)) =
      [(0xFFFFFFFFFFFFFFFC, .valid), (0, .invalid)] :=
  ⟨Arm64.fits_decoder,
    ((streams_account_for_bytes .arm64 0 0xFFFFFFFFFFFFFFFC _).1 _ _ Arm64.fits_decoder).2,
    by decide +kernel⟩

end Isa

end CodeListing
