import CodeListing.Listing.Text
import CodeListing.Proofs.Numerals

/-!
# Labels tell places apart

The digits of a label can be read back, whatever zeros stand in front of them, so two places in one
method never share a label.  No label holds a colon.  Hence the label at the start of a line is
determined by the line, and it is that of the distance from the base to the instruction.
-/

set_option autoImplicit false

namespace CodeListing

namespace Text

/-- Any number of zeros is read as zero. -/
theorem readDigitsFrom?_replicate_zero (count : Nat) :
    readDigitsFrom? 16 0 (List.replicate count '0') = some 0 := by
  induction count with
  | zero => rfl
  | succ count ih =>
    rw [List.replicate_succ]
    exact ih

/-- Zeros in front of the digits do not change the number. -/
theorem readDigitsFrom?_padLeft_hexDigits (width n : Nat) :
    readDigitsFrom? 16 0 (padLeft width '0' (hexDigits n)) = some n := by
  unfold padLeft
  rw [readDigitsFrom?_append _ (readDigitsFrom?_replicate_zero _)]
  exact readDigitsFrom?_toDigits (by decide) (by decide) n

end Text

/-! ## Labels -/

/-- A label is the letter and the digits of its offset, padded to four. -/
theorem toList_localLabel (offset : UInt64) :
    (localLabel offset).toList = 'L' :: Text.padLeft 4 '0' (Text.hexDigits offset.toNat) := by
  unfold localLabel
  exact String.toList_ofList

/-- Different places have different labels. -/
theorem localLabel_inj {offset other : UInt64} :
    localLabel offset = localLabel other ↔ offset = other := by
  constructor
  · intro h
    have hlists := congrArg String.toList h
    rw [toList_localLabel, toList_localLabel] at hlists
    have hread := congrArg (Text.readDigitsFrom? 16 0) (List.cons.inj hlists).2
    rw [Text.readDigitsFrom?_padLeft_hexDigits, Text.readDigitsFrom?_padLeft_hexDigits] at hread
    exact UInt64.toNat_inj.1 (Option.some.inj hread)
  · intro h
    rw [h]

/-- There is no colon in a label. -/
theorem colon_not_mem_localLabel (offset : UInt64) : ':' ∉ (localLabel offset).toList := by
  rw [toList_localLabel]
  intro hmem
  rcases List.mem_cons.1 hmem with heq | hmem
  · cases heq
  · have hread := Text.readDigitsFrom?_padLeft_hexDigits 4 offset.toNat
    exact Text.digitValue?_ne_none_of_mem hread hmem rfl

/-! ## Lines -/

namespace LineFormat

/-- The line of the instruction starts with the label, behind the address if addresses are
printed. -/
def ShowsLabel (format : LineFormat) (instruction : Instruction) (line label : String) : Prop :=
  ∃ rest, line = (if format.printAddresses then format.addressColumn instruction.address else "") ++
    label ++ ": " ++ rest

/-- A line shows the label of its instruction in front. -/
theorem showsLabel_line (format : LineFormat) (instruction : Instruction) (base : UInt64)
    (names : NameMap) :
    format.ShowsLabel instruction (format.line instruction base names)
      (localLabel (instruction.address - base)) := by
  unfold line
  dsimp only
  split
  · exact ⟨_, rfl⟩
  · exact ⟨_, (String.append_assoc ..).trans (String.append_assoc ..)⟩

/-- A line shows the label of no other place than that of its instruction. -/
theorem showsLabel_line_iff {format : LineFormat} {instruction : Instruction} {base : UInt64}
    {names : NameMap} {offset : UInt64} :
    format.ShowsLabel instruction (format.line instruction base names) (localLabel offset) ↔
      instruction.address - base = offset := by
  constructor
  · rintro ⟨rest, hline⟩
    obtain ⟨rest', hline'⟩ := format.showsLabel_line instruction base names
    rw [hline'] at hline
    have hlists := congrArg String.toList hline
    simp only [String.toList_append, List.append_assoc, List.append_cancel_left_eq] at hlists
    have hlabels := Text.eq_of_append_cons_eq (colon_not_mem_localLabel _)
      (colon_not_mem_localLabel _) hlists
    exact localLabel_inj.1 (String.toList_inj.1 hlabels)
  · intro h
    rw [← h]
    exact format.showsLabel_line instruction base names

end LineFormat

end CodeListing
