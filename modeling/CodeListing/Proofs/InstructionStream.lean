import CodeListing.Isa.Basic

/-!
# What a stream of instructions looks like

Decoding stops where fewer bytes are left than the shortest instruction has, and otherwise puts one
instruction, valid or not, in front of what it makes of the bytes behind it.  From this one step
follows for every instruction of a stream where it starts, and that it is as a decoder leaves it:
without a symbol, with a reference above the threshold or none, and with none if it is invalid.
-/

set_option autoImplicit false

namespace CodeListing

/-- The instruction is as a decoder leaves it. -/
structure Instruction.Plain (threshold : UInt64) (instruction : Instruction) : Prop where
  symbol_eq : instruction.symbol = none
  above : ∀ address, instruction.reference = some address → threshold < address
  reference_of_invalid : instruction.isInvalid = true → instruction.reference = none

namespace Isa

/-- A decoded instruction is plain. -/
theorem Found.plain_toInstruction (found : Found) (threshold address : UInt64)
    (bytes : List UInt8) : (found.toInstruction threshold address bytes).Plain threshold where
  symbol_eq := rfl
  above := by
    intro reference h
    exact of_decide_eq_true (Option.filter_eq_some_iff.1 h).2
  reference_of_invalid := by
    intro h
    cases h

/-- An invalid instruction is plain. -/
theorem plain_invalid (threshold address : UInt64) (bytes : List UInt8) :
    (Instruction.invalid address bytes).Plain threshold where
  symbol_eq := rfl
  above := by
    intro reference h
    cases h
  reference_of_invalid _ := rfl

namespace Decoder

variable {τ : Type} (decoder : Decoder τ) (threshold : UInt64)

/-- Too few bytes give no instructions. -/
theorem streamFrom_of_short (memory : τ) (address : UInt64) {bytes : List UInt8}
    (h : bytes.length < decoder.minLength) :
    decoder.streamFrom threshold memory address bytes = [] := by
  have hshort : (bytes.take decoder.minLength).length < decoder.minLength := by
    rw [List.length_take]
    omega
  rw [streamFrom, dif_pos hshort]

/-- Where enough bytes are left, an instruction stands in front of the stream of the bytes behind
it. -/
theorem streamFrom_of_long (memory : τ) (address : UInt64) {bytes : List UInt8}
    (h : decoder.minLength ≤ bytes.length) :
    ∃ first size memory', 0 < size ∧ first.address = address ∧ first.Plain threshold ∧
      decoder.streamFrom threshold memory address bytes =
        first :: decoder.streamFrom threshold memory' (address + UInt64.ofNat size)
          (bytes.drop size) := by
  have hlong : ¬ (bytes.take decoder.minLength).length < decoder.minLength := by
    rw [List.length_take]
    omega
  rw [streamFrom, dif_neg hlong]
  cases decoder.decode memory address bytes with
  | none =>
    exact ⟨_, decoder.minLength, memory, decoder.minLength_pos, rfl, plain_invalid _ _ _, rfl⟩
  | some result =>
    obtain ⟨found, memory'⟩ := result
    by_cases hpos : 0 < found.length
    · refine ⟨_, found.length, memory', hpos, rfl,
        found.plain_toInstruction _ _ bytes, ?_⟩
      exact dif_pos hpos
    · refine ⟨_, decoder.minLength, memory', decoder.minLength_pos, rfl,
        plain_invalid _ _ (bytes.take decoder.minLength), ?_⟩
      exact dif_neg hpos

/-- Every instruction of a stream starts at an offset behind which there are enough bytes for
one. -/
theorem exists_offset_of_mem_streamFrom {memory : τ} {address : UInt64} {bytes : List UInt8}
    {instruction : Instruction}
    (hmem : instruction ∈ decoder.streamFrom threshold memory address bytes) :
    ∃ offset, offset + decoder.minLength ≤ bytes.length ∧
      instruction.address = address + UInt64.ofNat offset ∧ instruction.Plain threshold := by
  -- The memory and the address change with every instruction; what shrinks are the bytes.
  induction hn : bytes.length using Nat.strongRecOn generalizing memory address bytes with
  | _ n ih =>
    by_cases hshort : bytes.length < decoder.minLength
    · rw [decoder.streamFrom_of_short threshold memory address hshort] at hmem
      cases hmem
    · obtain ⟨first, size, memory', hsize, haddress, hplain, hstream⟩ :=
        decoder.streamFrom_of_long threshold memory address (Nat.le_of_not_lt hshort)
      have hmin := decoder.minLength_pos
      rw [hstream] at hmem
      rcases List.mem_cons.1 hmem with rfl | hmem
      · refine ⟨0, by omega, ?_, hplain⟩
        rw [haddress]
        exact (UInt64.add_zero address).symm
      · have hrest : (bytes.drop size).length < n := by
          rw [List.length_drop]
          omega
        obtain ⟨offset, hoffset, heq, hplain⟩ := ih _ hrest hmem rfl
        rw [List.length_drop] at hoffset
        refine ⟨size + offset, by omega, ?_, hplain⟩
        rw [heq, UInt64.ofNat_add, UInt64.add_assoc]

/-- The bytes at an address are these instructions, one behind the other and with nothing left. -/
inductive Spells : τ → UInt64 → List UInt8 → List Found → Prop
  | nil (memory : τ) (address : UInt64) : Spells memory address [] []
  | cons {memory memory' : τ} {address : UInt64} {bytes : List UInt8} {found : Found}
      {behind : List Found} (hfound : decoder.decode memory address bytes = some (found, memory'))
      (hlong : decoder.minLength ≤ bytes.length) (hpos : 0 < found.length)
      (hbehind : Spells memory' (address + UInt64.ofNat found.length) (bytes.drop found.length)
        behind) :
      Spells memory address bytes (found :: behind)

/-- A stream shows the references of the instructions that its bytes are. -/
theorem Spells.map_reference {memory : τ} {address : UInt64} {bytes : List UInt8}
    {founds : List Found} (h : decoder.Spells memory address bytes founds) :
    (decoder.streamFrom threshold memory address bytes).map (·.reference) =
      founds.map fun found => found.reference.address.filter (threshold < ·) := by
  induction h with
  | nil memory address =>
    have hshort : ([] : List UInt8).length < decoder.minLength := decoder.minLength_pos
    rw [decoder.streamFrom_of_short threshold memory address hshort]
    rfl
  | @cons memory memory' address bytes found behind hfound hlong hpos hbehind ih =>
    have hnot : ¬ (bytes.take decoder.minLength).length < decoder.minLength := by
      rw [List.length_take]
      omega
    have hstream : decoder.streamFrom threshold memory address bytes =
        found.toInstruction threshold address bytes ::
          decoder.streamFrom threshold memory' (address + UInt64.ofNat found.length)
            (bytes.drop found.length) := by
      rw [streamFrom, dif_neg hnot, hfound]
      exact dif_pos hpos
    rw [hstream, List.map_cons, List.map_cons, ih]
    rfl

end Decoder

/-! ## Instruction sets -/

/-- To the decoders of the library, the bytes at an address are these instructions, nothing being
known before the first. -/
def Spells (isa : Isa) (address : UInt64) (bytes : List UInt8) (founds : List Found) : Prop :=
  match isa with
  | .x86 mode => (X86.decoder mode).Spells () address bytes founds
  | .arm64 => Arm64.decoder.Spells {} address bytes founds

/-- The references of spelled instructions are those that were found, as far as they lie above the
threshold. -/
theorem Spells.map_reference {isa : Isa} {address : UInt64} {bytes : List UInt8}
    {founds : List Found} (h : isa.Spells address bytes founds) (threshold : UInt64) :
    (isa.decode .builtIn threshold address bytes).map (·.reference) =
      founds.map fun found => found.reference.address.filter (threshold < ·) := by
  cases isa with
  | x86 mode => exact Decoder.Spells.map_reference (X86.decoder mode) threshold h
  | arm64 => exact Decoder.Spells.map_reference Arm64.decoder threshold h

/-- Every instruction set decodes by a stream of its own. -/
theorem exists_decoder (isa : Isa) (decoders : Decoders) :
    ∃ (τ : Type) (decoder : Decoder τ), decoder.minLength = isa.minLength ∧
      ∀ threshold address bytes,
        isa.decode decoders threshold address bytes = decoder.stream threshold address bytes := by
  cases isa with
  | x86 mode =>
    exact ⟨Unit, decoders.x86 mode, decoders.x86_minLength mode, fun _ _ _ => rfl⟩
  | arm64 => exact ⟨Arm64.Facts, decoders.arm64, decoders.arm64_minLength, fun _ _ _ => rfl⟩

/-- The least number of bytes of an instruction is not zero. -/
theorem minLength_pos (isa : Isa) : 0 < isa.minLength := by
  cases isa with
  | x86 mode => exact Nat.one_pos
  | arm64 => exact Nat.zero_lt_succ 3

variable {isa : Isa} {decoders : Decoders} {threshold address : UInt64} {bytes : List UInt8}

/-- Bytes that are enough for one instruction have one at their start. -/
theorem exists_mem_decode_of_long (h : isa.minLength ≤ bytes.length) :
    ∃ instruction ∈ isa.decode decoders threshold address bytes,
      instruction.address = address := by
  obtain ⟨τ, decoder, hmin, hdecode⟩ := isa.exists_decoder decoders
  rw [← hmin] at h
  obtain ⟨first, size, memory', -, haddress, -, hstream⟩ :=
    decoder.streamFrom_of_long threshold decoder.start address h
  refine ⟨first, ?_, haddress⟩
  rw [hdecode, Decoder.stream, hstream]
  exact List.mem_cons_self

/-- Every decoded instruction starts at an offset behind which there are enough bytes for one. -/
theorem exists_offset_of_mem_decode {instruction : Instruction}
    (hmem : instruction ∈ isa.decode decoders threshold address bytes) :
    ∃ offset, offset + isa.minLength ≤ bytes.length ∧
      instruction.address = address + UInt64.ofNat offset ∧ instruction.Plain threshold := by
  obtain ⟨τ, decoder, hmin, hdecode⟩ := isa.exists_decoder decoders
  rw [hdecode, Decoder.stream] at hmem
  rw [← hmin]
  exact decoder.exists_offset_of_mem_streamFrom threshold hmem

end Isa

end CodeListing
