import CodeListing.Proofs.LabelBase

/-!
# References into the method's own code

Whether an address is a local one is a matter of any single range, while labels count from the
lowest start of all of them.  A range that holds an address starts at or below it, so the distance
that a label tells is never negative, whatever order the ranges come in and however they overlap.

The label writes this distance in hexadecimal (`Text.WritesHex`).  It is read back from the digits,
also where they are more than four, so two places of one method never share a label.
-/

set_option autoImplicit false

namespace CodeListing

variable {σ : Type}

namespace Text

/-- The characters write a number in lower-case hexadecimal: they are read as the number, and zeros
stand in front of it only up to the width. -/
structure WritesHex (width n : Nat) (digits : List Char) : Prop where
  lower : ∀ c ∈ digits, c ∈ lowerHexDigits
  reads : readDigits? 16 digits = some n
  wide : width ≤ digits.length
  tight : width < digits.length → digits.head? ≠ some '0'

/-- Padded digits write their number. -/
theorem writesHex_padLeft {width : Nat} (hwidth : 0 < width) (n : Nat) :
    WritesHex width n (padLeft width '0' (hexDigits n)) := by
  have hpos : 0 < (hexDigits n).length := Nat.length_toDigits_pos
  have hlength := length_padLeft width '0' (hexDigits n)
  refine ⟨?_, ?_, ?_, ?_⟩
  · intro c hc
    unfold padLeft at hc
    rcases List.mem_append.1 hc with hc | hc
    · rw [List.eq_of_mem_replicate hc]
      decide
    · exact mem_lowerHexDigits_of_mem_hexDigits hc
  · have hne : (padLeft width '0' (hexDigits n)).isEmpty = false := by
      rw [List.isEmpty_eq_false_iff, ← List.length_pos_iff]
      omega
    unfold readDigits?
    rw [hne]
    exact readDigitsFrom?_padLeft_hexDigits width n
  · omega
  · intro hlong
    have hle : width < (hexDigits n).length := by omega
    rw [padLeft_of_le _ (Nat.le_of_lt hle)]
    apply head?_hexDigits_ne_zero
    -- Zero is written with one digit, which no width is short of.
    rintro rfl
    have hone : (hexDigits 0).length = 1 := rfl
    omega

end Text

namespace Current

/-- No range that holds an address starts below the base of the labels. -/
theorem labelBase_le_of_contains {current : Current} {address : UInt64}
    (h : current.contains address = true) : current.labelBase ≤ address := by
  obtain ⟨range, hrange, hcontains⟩ := List.any_eq_true.1 h
  obtain ⟨hleast, -⟩ := min?_getD_eq_iff.1 (rfl :
    (current.ranges.map (·.start)).min?.getD current.method.nativeCode = current.labelBase)
  have hstart : range.start ≤ address := by
    unfold CodeRange.contains at hcontains
    rw [Bool.and_eq_true, decide_eq_true_eq] at hcontains
    exact hcontains.1
  exact UInt64.le_trans (hleast _ (List.mem_map_of_mem hrange)) hstart

/-- A reference into the method's own code is resolved to the label of its distance from the base,
which is not negative.  The label is an `L` and the digits of the distance, at least four and in
lower case, and they are read back as the distance.  No other address of the method's code has the
same label. -/
theorem resolve_local_reads_back {current : Current} {address : UInt64}
    (hlocal : current.contains address = true) (provider : Provider σ) (guard : UInt64)
    (isPrecode : Bool) (findings : Findings) (s : σ) :
    current.labelBase ≤ address ∧
    (∃ digits,
      (resolve provider guard current isPrecode address findings).run s =
        ((some (String.ofList ('L' :: digits)), findings), s) ∧
      Text.WritesHex 4 (address.toNat - current.labelBase.toNat) digits) ∧
    ∀ other isPrecode' findings' s', current.contains other = true →
      ((resolve provider guard current isPrecode' other findings').run s').1.1 =
        ((resolve provider guard current isPrecode address findings).run s).1.1 →
      other = address := by
  have hbase := labelBase_le_of_contains hlocal
  refine ⟨hbase, ⟨_, run_resolve_of_contains hlocal, ?_⟩, ?_⟩
  · rw [← UInt64.toNat_sub_of_le _ _ hbase]
    exact Text.writesHex_padLeft (by decide) _
  · intro other isPrecode' findings' s' hother heq
    rw [run_resolve_of_contains hlocal, run_resolve_of_contains hother] at heq
    have hoffsets := localLabel_inj.1 (Option.some.inj heq)
    exact (UInt64.sub_left_inj _).1 hoffsets

/-- A method whose ranges come out of order; one is empty and two overlap. -/
def scattered : Current where
  method := TwoRanges.method 4
  ranges := [⟨0x20000, 8⟩, ⟨0x10000, 0⟩, ⟨0x1FFFE, 4⟩]
  depth := 0

/-- The base is the start of the empty range, and a distance of more than four digits is read
back. -/
theorem resolve_local_of_scattered_ranges :
    scattered.contains 0x20001 = true ∧
    ∃ digits,
      (resolve ((TwoRanges.index 4).provider Unit) 4096 scattered false 0x20001
          { names := .empty }).run () =
        ((some (String.ofList ('L' :: digits)), { names := .empty }), ()) ∧
      Text.WritesHex 4 0x10001 digits := by
  have hlocal : scattered.contains 0x20001 = true := by decide
  exact ⟨hlocal, (resolve_local_reads_back hlocal ((TwoRanges.index 4).provider Unit) 4096 false
    { names := .empty } ()).2.1⟩

end Current

end CodeListing
