import CodeListing.Proofs.AccessLog
import CodeListing.Proofs.ServedMemory

/-!
# A range of code is what the memory holds

A provider answers a read with as many bytes as it likes, and may answer the same read differently
the next time.  A range is read piece by piece behind what was read before, so only the memory
decides what comes out: each piece lies in the memory where the last one ended, and reading stops
where the range ends or the memory does.
-/

set_option autoImplicit false

namespace CodeListing

variable {σ τ : Type}

namespace MemoryMap

variable {memory : MemoryMap} {address : UInt64} {bytes : List UInt8}

/-- Of so many bytes from the address on, these are the ones in front of the first that is not
mapped. -/
structure IsFront (memory : MemoryMap) (address : UInt64) (count : Nat) (bytes : List UInt8) :
    Prop where
  holds : memory.Holds address bytes
  length_le : bytes.length ≤ count
  not_maps : bytes.length < count → ¬ memory.Maps (address + UInt64.ofNat bytes.length)

/-- The bytes in front of the first hole are all of them if there is no hole. -/
theorem IsFront.length_eq_iff {count : Nat} (h : memory.IsFront address count bytes) :
    bytes.length = count ↔ ∀ i < count, memory.Maps (address + UInt64.ofNat i) := by
  constructor
  · rintro rfl i hi
    exact h.holds.maps hi
  · intro hall
    by_contra hne
    have hlt : bytes.length < count := Nat.lt_of_le_of_ne h.length_le hne
    exact h.not_maps hlt (hall _ hlt)

end MemoryMap

/-! ## Reading piece by piece -/

namespace Provider

/-- A read at a mapped address gets bytes that lie in the memory there, at least one and at most as
many as it asks for; a read at any other address gets none.  How many bytes it gets may change from
read to read. -/
structure ServesPieces (provider : Provider σ) (memory : MemoryMap) : Prop where
  read_maps : ∀ {address : UInt64} {count : Nat} (s : σ), 0 < count → memory.Maps address →
    0 < ((provider.read address count).run s).1.length ∧
      ((provider.read address count).run s).1.length ≤ count ∧
      memory.Holds address ((provider.read address count).run s).1
  read_not_maps : ∀ {address : UInt64} {count : Nat} (s : σ), 0 < count → ¬ memory.Maps address →
    ((provider.read address count).run s).1 = []

variable {provider : Provider σ} {memory : MemoryMap}

/-- With bytes missing, reading on takes a piece and goes on behind it, or stops if it gets nothing.
-/
theorem run_readOn_of_ne_zero (provider : Provider σ) (start : UInt64) (offset : Nat)
    {missing : Nat} (hmissing : missing ≠ 0) (s : σ) {answer : List UInt8} {s' : σ}
    (hread : (provider.read (start + UInt64.ofNat offset) (min missing chunkSize)).run s =
      (answer, s')) :
    (provider.readOn start offset missing).run s =
      if (answer.take (min missing chunkSize)).length = 0 then ([], s')
      else
        let piece := answer.take (min missing chunkSize)
        let rest := (provider.readOn start (offset + piece.length)
          (missing - piece.length)).run s'
        (piece ++ rest.1, rest.2) := by
  rw [readOn, dif_neg hmissing, run_bind, hread]
  dsimp only
  split
  · rfl
  · rfl

/-- Whatever pieces come, reading on gets what the memory holds. -/
theorem ServesPieces.isFront_readOn (h : provider.ServesPieces memory) (start : UInt64)
    (offset missing : Nat) (s : σ) :
    memory.IsFront (start + UInt64.ofNat offset) missing
      ((provider.readOn start offset missing).run s).1 := by
  induction missing using Nat.strongRecOn generalizing offset s with
  | _ missing ih =>
    by_cases hmissing : missing = 0
    · subst hmissing
      rw [readOn, dif_pos rfl]
      exact ⟨MemoryMap.holds_nil, Nat.le_refl 0, fun hlt => absurd hlt (Nat.lt_irrefl 0)⟩
    · have hwanted : 0 < min missing chunkSize := by
        have hchunk : 0 < chunkSize := by decide
        omega
      rcases hread : (provider.read (start + UInt64.ofNat offset) (min missing chunkSize)).run s
        with ⟨answer, s'⟩
      rw [run_readOn_of_ne_zero provider start offset hmissing s hread]
      by_cases hmaps : memory.Maps (start + UInt64.ofNat offset)
      · obtain ⟨hpos, hle, hholds⟩ := h.read_maps s hwanted hmaps
        rw [hread] at hpos hle hholds
        dsimp only at hpos hle hholds
        have htake : answer.take (min missing chunkSize) = answer := List.take_of_length_le hle
        rw [htake, if_neg (by omega)]
        have hrest := ih (missing - answer.length) (by omega) (offset + answer.length) s'
        -- The rest is read from where this piece ends.
        have hnext : start + UInt64.ofNat (offset + answer.length) =
            start + UInt64.ofNat offset + UInt64.ofNat answer.length := by
          rw [UInt64.ofNat_add, UInt64.add_assoc]
        rw [hnext] at hrest
        refine ⟨hholds.append hrest.holds, ?_, ?_⟩
        · have hlength := hrest.length_le
          rw [List.length_append]
          omega
        · intro hlt
          rw [List.length_append] at hlt ⊢
          rw [UInt64.ofNat_add, ← UInt64.add_assoc]
          exact hrest.not_maps (by omega)
      · have hnil := h.read_not_maps s hwanted hmaps
        rw [hread] at hnil
        dsimp only at hnil
        rw [hnil, List.take_nil, if_pos List.length_nil]
        refine ⟨MemoryMap.holds_nil, Nat.zero_le _, fun _ => ?_⟩
        simpa using hmaps

/-- Each read but the last gets a byte at least, so there are no more reads than bytes wanted. -/
theorem exists_records_readOn (note : Access → Option τ) (provider : Provider σ) (start : UInt64)
    (offset missing : Nat) (s : σ) :
    ∃ trace, Records note s ((provider.recording note).readOn start offset missing)
      (provider.readOn start offset missing) trace ∧ trace.length ≤ missing := by
  induction missing using Nat.strongRecOn generalizing offset s with
  | _ missing ih =>
    by_cases hmissing : missing = 0
    · subst hmissing
      rw [readOn, readOn, dif_pos rfl, dif_pos rfl]
      exact ⟨[], .pure _, Nat.le_refl 0⟩
    · rw [readOn, readOn, dif_neg hmissing, dif_neg hmissing]
      have hread := records_read note provider (s := s) (start + UInt64.ofNat offset)
        (min missing chunkSize)
      rcases hrun : (provider.read (start + UInt64.ofNat offset) (min missing chunkSize)).run s
        with ⟨answer, s'⟩
      by_cases hpiece : (answer.take (min missing chunkSize)).length = 0
      · refine ⟨_ ++ [], hread.bind ?_, ?_⟩
        · rw [hrun]
          dsimp only
          rw [dif_pos hpiece, dif_pos hpiece]
          exact .pure _
        · simp only [List.append_nil, List.length_singleton]
          omega
      · obtain ⟨trace, htrace, hlength⟩ := ih
          (missing - (answer.take (min missing chunkSize)).length) (by omega)
          (offset + (answer.take (min missing chunkSize)).length) s'
        refine ⟨_ ++ trace, hread.bind ?_, ?_⟩
        · rw [hrun]
          dsimp only
          rw [dif_neg hpiece, dif_neg hpiece]
          exact htrace.map _
        · simp only [List.singleton_append, List.length_cons]
          omega

/-! ## Whole ranges -/

/-- A range is read if reading on gets all of its bytes, and else the number of those that it got is
told. -/
theorem run_readRange (provider : Provider σ) (range : CodeRange) (s : σ) :
    ((provider.readRange range).run s).1 =
      if ((provider.readOn range.start 0 range.length.toNat).run s).1.length = range.length.toNat
      then .ok ((provider.readOn range.start 0 range.length.toNat).run s).1
      else .error (.shortRead range.start range.length.toNat
        ((provider.readOn range.start 0 range.length.toNat).run s).1.length) := by
  unfold readRange
  rw [run_bind]
  split
  · rfl
  · rfl

/-- Reading a range takes no more reads than it has bytes. -/
theorem exists_records_readRange (note : Access → Option τ) (provider : Provider σ)
    (range : CodeRange) (s : σ) :
    ∃ trace, Records note s ((provider.recording note).readRange range)
      (provider.readRange range) trace ∧ trace.length ≤ range.length.toNat := by
  obtain ⟨trace, htrace, hlength⟩ :=
    exists_records_readOn note provider range.start 0 range.length.toNat s
  refine ⟨trace ++ [], htrace.bind ?_, by simpa using hlength⟩
  split
  · exact .pure _
  · exact .pure _

/-- Reading a range takes at most as many reads as it has bytes, however the reads are cut.  If all
addresses of the range are mapped, its bytes come out; if not, the error tells how many addresses
are mapped in front of the first that is not. -/
theorem readRange_eq_of_servesPieces (h : provider.ServesPieces memory) (range : CodeRange)
    (s : σ) :
    (∃ trace : List Access,
      ((provider.recording some).readRange range).run ([], s) =
        (((provider.readRange range).run s).1, (trace, ((provider.readRange range).run s).2)) ∧
      trace.length ≤ range.length.toNat) ∧
    ((∀ i < range.length.toNat, memory.Maps (range.start + UInt64.ofNat i)) →
      ∃ bytes, ((provider.readRange range).run s).1 = .ok bytes ∧
        bytes.length = range.length.toNat ∧ memory.Holds range.start bytes) ∧
    ((∃ i < range.length.toNat, ¬ memory.Maps (range.start + UInt64.ofNat i)) →
      ∃ actual < range.length.toNat,
        ((provider.readRange range).run s).1 =
          .error (.shortRead range.start range.length.toNat actual) ∧
        (∀ i < actual, memory.Maps (range.start + UInt64.ofNat i)) ∧
        ¬ memory.Maps (range.start + UInt64.ofNat actual)) := by
  have hfront := h.isFront_readOn range.start 0 range.length.toNat s
  rw [show range.start + UInt64.ofNat 0 = range.start from UInt64.add_zero _] at hfront
  refine ⟨?_, ?_, ?_⟩
  · obtain ⟨trace, htrace, hlength⟩ := exists_records_readRange some provider range s
    refine ⟨trace, ?_, hlength⟩
    rw [htrace [], List.filterMap_some, List.nil_append]
  · intro hall
    have hlength := hfront.length_eq_iff.2 hall
    refine ⟨_, ?_, hlength, hfront.holds⟩
    rw [run_readRange, if_pos hlength]
  · rintro ⟨i, hi, hnot⟩
    have hne : ((provider.readOn range.start 0 range.length.toNat).run s).1.length ≠
        range.length.toNat := fun heq => hnot (hfront.length_eq_iff.1 heq i hi)
    have hlt := Nat.lt_of_le_of_ne hfront.length_le hne
    refine ⟨_, hlt, ?_, fun i hi => hfront.holds.maps hi, hfront.not_maps hlt⟩
    rw [run_readRange, if_neg hne]

/-- Reads get one byte at a time. -/
def bytewise (memory : MemoryMap) : Provider Unit :=
  serving fun address _ => (memory address).toList

/-- Memory that is read byte by byte is served in pieces. -/
theorem servesPieces_bytewise (memory : MemoryMap) : (bytewise memory).ServesPieces memory where
  read_maps := by
    intro address count s hcount hmaps
    show 0 < (memory address).toList.length ∧ (memory address).toList.length ≤ count ∧
      memory.Holds address (memory address).toList
    cases hbyte : memory address with
    | none => exact absurd hbyte hmaps
    | some byte =>
      refine ⟨Nat.one_pos, hcount, ?_⟩
      intro i b hget
      obtain ⟨rfl, rfl⟩ : i = 0 ∧ byte = b := by
        simpa [List.getElem?_singleton] using hget
      simpa using hbyte
  read_not_maps := by
    intro address count s _ hnot
    have hnone : memory address = none := by simpa [MemoryMap.Maps] using hnot
    show (memory address).toList = []
    rw [hnone]
    rfl

/-- A memory of three bytes around the end of the address space. -/
def threeBytes : MemoryMap := .ofBytes 0xFFFFFFFFFFFFFFFE [1, 2, 3]

/-- If the three bytes are handed out one by one, a range of three is read, and a range of five ends
too early. -/
theorem readRange_of_three_bytes :
    (bytewise threeBytes).ServesPieces threeBytes ∧
    (∃ bytes, (((bytewise threeBytes).readRange ⟨0xFFFFFFFFFFFFFFFE, 3⟩).run ()).1 = .ok bytes ∧
      bytes.length = 3 ∧ threeBytes.Holds 0xFFFFFFFFFFFFFFFE bytes) ∧
    ∃ actual < 5, (((bytewise threeBytes).readRange ⟨0xFFFFFFFFFFFFFFFE, 5⟩).run ()).1 =
        .error (.shortRead 0xFFFFFFFFFFFFFFFE 5 actual) ∧
      (∀ i < actual, threeBytes.Maps (0xFFFFFFFFFFFFFFFE + UInt64.ofNat i)) ∧
      ¬ threeBytes.Maps (0xFFFFFFFFFFFFFFFE + UInt64.ofNat actual) := by
  have hserves := servesPieces_bytewise threeBytes
  refine ⟨hserves, ?_, ?_⟩
  · exact (readRange_eq_of_servesPieces hserves ⟨0xFFFFFFFFFFFFFFFE, 3⟩ ()).2.1 (by decide)
  · exact (readRange_eq_of_servesPieces hserves ⟨0xFFFFFFFFFFFFFFFE, 5⟩ ()).2.2
      ⟨3, by decide, by decide⟩

end Provider

end CodeListing
