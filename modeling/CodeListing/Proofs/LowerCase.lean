import CodeListing.Text.Blank
import CodeListing.Text.LowerCase

/-!
# Lower case is final

No case run leads to a code point that a run covers, nor to white space.  As the bits of two numbers
the sets of these code points have none in common, which is one operation to check.

So every character of a lowered text is its own lower case (`IsLower`), and a text that was trimmed
and lowered stays as it is when it is trimmed and lowered again (`lowerText_trim_again`).
-/

set_option autoImplicit false

namespace CodeListing.Text

/-! ## The table -/

/-- The code points of a closed interval. -/
def interval (range : Nat × Nat) : List Nat :=
  (List.range (range.2 + 1 - range.1)).map (range.1 + ·)

/-- An interval has the codes from its first to its last. -/
theorem mem_interval {range : Nat × Nat} {code : Nat} :
    code ∈ interval range ↔ range.1 ≤ code ∧ code ≤ range.2 := by
  simp only [interval, List.mem_map, List.mem_range]
  constructor
  · rintro ⟨k, hk, rfl⟩
    omega
  · rintro ⟨hlow, hhigh⟩
    exact ⟨code - range.1, by omega, by omega⟩

/-- The code points that the run covers. -/
def CaseRun.codes (run : CaseRun) : List Nat :=
  (interval (run.first, run.last)).filter run.covers

/-- The codes of a run are those that it covers. -/
theorem CaseRun.mem_codes {run : CaseRun} {code : Nat} :
    code ∈ run.codes ↔ run.covers code = true := by
  simp only [codes, List.mem_filter, mem_interval, and_iff_right_iff_imp]
  intro h
  simp only [covers, Bool.and_eq_true, decide_eq_true_eq] at h
  exact h.1

/-- The code points that the run leads to. -/
def CaseRun.targets (run : CaseRun) : List Nat :=
  run.codes.map fun (code : Nat) => (code + run.offset).toNat

/-- White space, the capital letters of ASCII, the two characters with rules of their own, and the
numbers between the others that are no code points of characters. -/
def reserved : Ranges := [
  (0x9, 0xD), (0x20, 0x20), (0x41, 0x5A), (0x85, 0x85), (0xA0, 0xA0), (0x130, 0x130),
  (0x3A3, 0x3A3), (0x1680, 0x1680), (0x2000, 0x200A), (0x2028, 0x2029), (0x202F, 0x202F),
  (0x205F, 0x205F), (0x3000, 0x3000), (0xD800, 0xDFFF)
]

/-- A set of code points as the bits of a number. -/
def bits (codes : List Nat) : Nat :=
  codes.foldr (fun code set => 1 <<< code ||| set) 0

/-- The bits that are set are those of the codes. -/
theorem testBit_bits (codes : List Nat) (k : Nat) :
    (bits codes).testBit k = decide (k ∈ codes) := by
  induction codes with
  | nil => simp [bits]
  | cons code rest ih =>
    have hbit : (1 <<< code).testBit k = decide (k = code) := by
      rw [Nat.one_shiftLeft, Nat.testBit_two_pow]
      simp [eq_comm]
    show (1 <<< code ||| bits rest).testBit k = _
    rw [Nat.testBit_or, ih, hbit, ← Bool.decide_or]
    simp

/-- No run leads to a code out of range, to a reserved one or to one of a run. -/
theorem bits_targets : bits (caseRuns.flatMap CaseRun.targets) >>> 0x110000 = 0 ∧
    bits (caseRuns.flatMap CaseRun.targets) &&&
      bits (reserved.flatMap interval ++ caseRuns.flatMap CaseRun.codes) = 0 := by
  decide +kernel

section Targets

variable {run : CaseRun} (hrun : run ∈ caseRuns) {code : Nat} (hcovers : run.covers code = true)

include hrun hcovers

/-- The bit of a code that a run leads to is set. -/
theorem testBit_target :
    (bits (caseRuns.flatMap CaseRun.targets)).testBit (code + run.offset).toNat = true := by
  rw [testBit_bits, decide_eq_true_eq, List.mem_flatMap]
  exact ⟨run, hrun, List.mem_map.2 ⟨code, CaseRun.mem_codes.2 hcovers, rfl⟩⟩

/-- A code that a run leads to is in range. -/
theorem target_lt : (code + run.offset).toNat < 0x110000 := by
  rw [← Nat.not_le]
  intro hle
  obtain ⟨k, hk⟩ := Nat.exists_eq_add_of_le hle
  have hset := testBit_target hrun hcovers
  rw [hk, ← Nat.testBit_shiftRight, bits_targets.1, Nat.zero_testBit] at hset
  exact Bool.false_ne_true hset

/-- A code that a run leads to is not reserved and in no run. -/
theorem target_not_mem :
    (code + run.offset).toNat ∉ reserved.flatMap interval ++ caseRuns.flatMap CaseRun.codes := by
  intro hmem
  have hboth := congrArg (Nat.testBit · (code + run.offset).toNat) bits_targets.2
  simp only [Nat.testBit_and, testBit_target hrun hcovers, testBit_bits, hmem] at hboth
  simp at hboth

end Targets

/-! ## Characters -/

/-- The character stays as it is, wherever it stands in a text. -/
def IsLower (c : Char) : Prop :=
  lowerChar c = [c] ∧ c.toNat ≠ 0x3A3

/-- A character that is not reserved and in no run stays as it is. -/
theorem isLower_of_not_reserved {c : Char}
    (hreserved : ∀ range ∈ reserved, ¬ (range.1 ≤ c.toNat ∧ c.toNat ≤ range.2))
    (hruns : ∀ run ∈ caseRuns, run.covers c.toNat = false) : IsLower c := by
  have hcapital := hreserved (0x41, 0x5A) (by decide)
  have hdotted := hreserved (0x130, 0x130) (by decide)
  have hsigma := hreserved (0x3A3, 0x3A3) (by decide)
  simp only at hcapital hdotted hsigma
  refine ⟨?_, by omega⟩
  have hlower : c.toLower = c := by
    have hnot : ¬ (c.val ≥ 'A'.val ∧ c.val ≤ 'Z'.val) := by
      rintro ⟨hge, hle⟩
      exact hcapital ⟨UInt32.le_iff_toNat_le.1 hge, UInt32.le_iff_toNat_le.1 hle⟩
    exact dif_neg hnot
  have hfind : caseRuns.find? (·.covers c.toNat) = none := by
    rw [List.find?_eq_none]
    intro run hrun
    rw [hruns run hrun]
    exact Bool.false_ne_true
  have hne : (c.toNat == 0x130) = false := by
    rw [beq_eq_false_iff_ne]
    omega
  unfold lowerChar
  rw [hlower, hfind, hne]
  split
  · rfl
  · rfl

/-- Blanks are reserved. -/
theorem isBlank_reserved {c : Char} (h : isBlank c = true) :
    ∃ range ∈ reserved, range.1 ≤ c.toNat ∧ c.toNat ≤ range.2 := by
  simp only [isBlank, Bool.or_eq_true, Bool.and_eq_true, decide_eq_true_eq, beq_iff_eq] at h
  simp only [reserved, List.mem_cons, List.not_mem_nil, or_false, exists_eq_or_imp,
    exists_eq_left]
  omega

/-- The character that a run leads to is led nowhere else, and it is no white space. -/
theorem isLower_target {run : CaseRun} (hrun : run ∈ caseRuns) {code : Nat}
    (hcovers : run.covers code = true) :
    IsLower (Char.ofNat (code + run.offset).toNat) ∧
      isBlank (Char.ofNat (code + run.offset).toNat) = false := by
  have hlt := target_lt hrun hcovers
  have hnot := target_not_mem hrun hcovers
  generalize (code + run.offset).toNat = target at hlt hnot
  rw [List.mem_append, not_or] at hnot
  obtain ⟨hreserved, hcodes⟩ := hnot
  have hreserved : ∀ range ∈ reserved, ¬ (range.1 ≤ target ∧ target ≤ range.2) := by
    intro range hrange hinside
    exact hreserved (List.mem_flatMap.2 ⟨range, hrange, mem_interval.2 hinside⟩)
  have hvalid : target.isValidChar := by
    have hgap := hreserved (0xD800, 0xDFFF) (by decide)
    simp only at hgap
    unfold Nat.isValidChar
    omega
  have hcode : (Char.ofNat target).toNat = target := by
    have hchar : Char.ofNat target = Char.ofNatAux target hvalid := dif_pos hvalid
    rw [hchar]
    rfl
  rw [← hcode] at hreserved
  refine ⟨isLower_of_not_reserved hreserved ?_, ?_⟩
  · intro other hother
    rw [hcode, Bool.eq_false_iff]
    intro hother'
    exact hcodes (List.mem_flatMap.2 ⟨other, hother, CaseRun.mem_codes.2 hother'⟩)
  · rw [Bool.eq_false_iff]
    intro hblank
    obtain ⟨range, hrange, hinside⟩ := isBlank_reserved hblank
    exact hreserved range hrange hinside

/-- The lower case of a plain character stays as it is, and is blank only for a blank. -/
theorem isLower_ascii : ∀ n < 0x80, IsLower (Char.ofNat n).toLower ∧
    (isBlank (Char.ofNat n) = false → isBlank (Char.ofNat n).toLower = false) := by
  unfold IsLower
  decide +kernel

/-- What is written by the two rules for single characters. -/
theorem isLower_special : ∀ code ∈ [0x69, 0x307, 0x3C2, 0x3C3],
    IsLower (Char.ofNat code) ∧ isBlank (Char.ofNat code) = false := by
  unfold IsLower
  decide +kernel

/-- A character does not vanish in lower case. -/
theorem ne_nil_of_lowerChar (c : Char) : lowerChar c ≠ [] := by
  unfold lowerChar
  repeat' split
  all_goals simp

/-- The lower case of a character stays as it is, and is blank only for a blank. -/
theorem isLower_of_mem_lowerChar {c d : Char} (hsigma : c.toNat ≠ 0x3A3) (hd : d ∈ lowerChar c) :
    IsLower d ∧ (isBlank c = false → isBlank d = false) := by
  by_cases hascii : c.toNat < 0x80
  · have hlower := isLower_ascii c.toNat hascii
    rw [Char.ofNat_toNat] at hlower
    simp only [lowerChar, hascii, if_true, List.mem_singleton] at hd
    rw [hd]
    exact hlower
  by_cases hdotted : c.toNat = 0x130
  · have hpair : lowerChar c = [0x69, 0x307].map Char.ofNat := by
      simp [lowerChar, hdotted]
    rw [hpair, List.mem_map] at hd
    obtain ⟨code, hcode, rfl⟩ := hd
    obtain ⟨hlower, hblank⟩ := isLower_special code (List.mem_append_left [0x3C2, 0x3C3] hcode)
    exact ⟨hlower, fun _ => hblank⟩
  cases hfind : caseRuns.find? (·.covers c.toNat) with
  | none =>
    have hself : lowerChar c = [c] := by
      simp [lowerChar, hascii, hdotted, hfind]
    rw [hself, List.mem_singleton] at hd
    rw [hd]
    exact ⟨⟨hself, hsigma⟩, id⟩
  | some run =>
    have htarget : lowerChar c = [Char.ofNat (c.toNat + run.offset).toNat] := by
      simp [lowerChar, hascii, hdotted, hfind]
    have hcovers := List.find?_some hfind
    have hlower := isLower_target (List.mem_of_find?_eq_some hfind) hcovers
    rw [htarget, List.mem_singleton] at hd
    rw [hd]
    exact ⟨hlower.1, fun _ => hlower.2⟩

/-! ## Texts -/

/-- What is written for one character between `before` (nearest first) and `after`. -/
def lowerAt (before : List Char) (c : Char) (after : List Char) : List Char :=
  if c.toNat == 0x3A3 then [Char.ofNat (if isFinalSigma before after then 0x3C2 else 0x3C3)]
  else lowerChar c

/-- A text is lowered character by character, each with those in front of it. -/
theorem lowerFrom_cons (before : List Char) (c : Char) (rest : List Char) :
    lowerFrom before (c :: rest) = lowerAt before c rest ++ lowerFrom (c :: before) rest := rfl

/-- A character does not vanish in lower case, wherever it stands. -/
theorem lowerAt_ne_nil (before : List Char) (c : Char) (after : List Char) :
    lowerAt before c after ≠ [] := by
  unfold lowerAt
  split
  · simp
  · exact ne_nil_of_lowerChar c

/-- What is written for a character stays as it is, and is blank only for a blank. -/
theorem isLower_of_mem_lowerAt {before after : List Char} {c d : Char}
    (hd : d ∈ lowerAt before c after) : IsLower d ∧ (isBlank c = false → isBlank d = false) := by
  unfold lowerAt at hd
  split at hd
  · rw [List.mem_singleton] at hd
    have hcode : (if isFinalSigma before after then 0x3C2 else 0x3C3) ∈
        [0x69, 0x307, 0x3C2, 0x3C3] := by
      split
      · simp
      · simp
    obtain ⟨hlower, hblank⟩ := isLower_special _ hcode
    rw [hd]
    exact ⟨hlower, fun _ => hblank⟩
  next hsigma => exact isLower_of_mem_lowerChar (by simpa using hsigma) hd

/-- The characters of a lowered text stay as they are. -/
theorem isLower_of_mem_lowerFrom {before text : List Char} {d : Char}
    (hd : d ∈ lowerFrom before text) : IsLower d := by
  induction text generalizing before with
  | nil => simp [lowerFrom] at hd
  | cons c rest ih =>
    rw [lowerFrom_cons, List.mem_append] at hd
    obtain hd | hd := hd
    · exact (isLower_of_mem_lowerAt hd).1
    · exact ih hd

/-- A text of characters that stay as they are stays as it is. -/
theorem lowerFrom_of_isLower {text : List Char} (h : ∀ c ∈ text, IsLower c) (before : List Char) :
    lowerFrom before text = text := by
  induction text generalizing before with
  | nil => rfl
  | cons c rest ih =>
    obtain ⟨hself, hsigma⟩ := h c List.mem_cons_self
    rw [lowerFrom_cons, ih (fun d hd => h d (List.mem_cons_of_mem c hd))]
    simp [lowerAt, hself, hsigma]

/-- Only the empty text is lowered to the empty one. -/
theorem lowerFrom_eq_nil {before text : List Char} : lowerFrom before text = [] ↔ text = [] := by
  cases text with
  | nil => simp [lowerFrom]
  | cons c rest => simp [lowerFrom_cons, lowerAt_ne_nil]

/-- A lowered text starts with a blank only if the text does. -/
theorem isBlank_head?_lowerFrom {before text : List Char} {d : Char}
    (h : ∀ c ∈ text.head?, isBlank c = false) (hd : d ∈ (lowerFrom before text).head?) :
    isBlank d = false := by
  cases text with
  | nil => simp [lowerFrom] at hd
  | cons c rest =>
    have hne : (lowerAt before c rest).head?.isSome := by
      simp [lowerAt_ne_nil]
    rw [lowerFrom_cons, List.head?_append, Option.or_of_isSome hne] at hd
    exact (isLower_of_mem_lowerAt (List.mem_of_mem_head? hd)).2 (h c rfl)

/-- A lowered text ends with a blank only if the text does. -/
theorem isBlank_getLast?_lowerFrom {before text : List Char} {d : Char}
    (h : ∀ c ∈ text.getLast?, isBlank c = false) (hd : d ∈ (lowerFrom before text).getLast?) :
    isBlank d = false := by
  induction text generalizing before with
  | nil => simp [lowerFrom] at hd
  | cons c rest ih =>
    rw [lowerFrom_cons] at hd
    cases rest with
    | nil =>
      rw [lowerFrom, List.append_nil] at hd
      exact (isLower_of_mem_lowerAt (List.mem_of_getLast? hd)).2 (h c rfl)
    | cons next rest =>
      have hne : (lowerFrom (c :: before) (next :: rest)).getLast?.isSome := by
        simp [lowerFrom_eq_nil]
      rw [List.getLast?_append, Option.or_of_isSome hne] at hd
      exact ih h hd

/-- A text that was trimmed and lowered stays as it is. -/
theorem lowerText_trim_again (text : String) :
    lowerText (trim (lowerText (trim text))) = lowerText (trim text) := by
  have htrim : trimChars (lowerFrom [] (trimChars text.toList)) =
      lowerFrom [] (trimChars text.toList) := by
    apply trimChars_eq_self
    · intro d hd
      exact isBlank_head?_lowerFrom (fun c hc => isBlank_head?_trimChars hc) hd
    · intro d hd
      exact isBlank_getLast?_lowerFrom (fun c hc => isBlank_getLast?_trimChars hc) hd
  have hlower := lowerFrom_of_isLower
    (fun d (hd : d ∈ lowerFrom [] (trimChars text.toList)) => isLower_of_mem_lowerFrom hd) []
  simp only [lowerText, trim, String.toList_ofList]
  rw [htrim, hlower]

end CodeListing.Text
