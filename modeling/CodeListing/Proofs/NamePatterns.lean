import CodeListing.Glob

/-!
# What name patterns match

`Fits` says what a pattern means, without regard to how it is matched: the text can be cut into
pieces, one for each character of the pattern.  Whatever the matcher accepts fits its pattern.  A
text without stars that fits is accepted: the part of the pattern in front of a star takes as many
characters wherever it fits, so its first place leaves the most text to the star, and no earlier
star has to be looked at again.

`Search` is the matcher as a loop that keeps its place and the last star, and goes back to that star
when it is stuck.  `Search.Ends` holds of the answer that a finite number of rounds leads to.
-/

set_option autoImplicit false

namespace CodeListing.Glob

/-- The text can be cut so that each star of the pattern takes any row of characters, each question
mark one character and every other character itself. -/
inductive Fits : List Char → List Char → Prop
  | nil : Fits [] []
  | star {pattern text : List Char} (taken : List Char) (h : Fits pattern text) :
      Fits ('*' :: pattern) (taken ++ text)
  | any {pattern text : List Char} (t : Char) (h : Fits pattern text) :
      Fits ('?' :: pattern) (t :: text)
  | same {pattern text : List Char} {t : Char} (hstar : t ≠ '*') (hany : t ≠ '?')
      (h : Fits pattern text) : Fits (t :: pattern) (t :: text)

section Fits

variable {p t : Char} {pattern text rest behind : List Char}

/-- Behind a star the pattern fits some end of the text. -/
theorem fits_star_iff :
    Fits ('*' :: pattern) text ↔ ∃ other, other <:+ text ∧ Fits pattern other := by
  constructor
  · intro h
    cases h with
    | star taken h => exact ⟨_, List.suffix_append _ _, h⟩
    | same hstar => exact absurd rfl hstar
  · rintro ⟨other, ⟨taken, rfl⟩, h⟩
    exact .star taken h

/-- A star takes more if there is more in front. -/
theorem Fits.star_of_suffix {other : List Char} (h : Fits ('*' :: pattern) other)
    (hsuffix : other <:+ text) : Fits ('*' :: pattern) text := by
  obtain ⟨last, hlast, hfits⟩ := fits_star_iff.1 h
  exact fits_star_iff.2 ⟨last, hlast.trans hsuffix, hfits⟩

/-- Where a character agrees, a star takes only this one. -/
theorem Fits.pass (h : Fits pattern text) (hagree : (p == '?' || p == t) = true) :
    Fits (p :: pattern) (t :: text) := by
  by_cases hany : p = '?'
  · subst hany
    exact .any t h
  obtain rfl : p = t := by simpa [hany] using hagree
  by_cases hstar : p = '*'
  · subst hstar
    exact .star ['*'] h
  · exact .same hstar hany h

/-- A character that is no star fits one character. -/
theorem fits_cons_iff (hp : p ≠ '*') :
    Fits (p :: pattern) (t :: text) ↔ (p == '?' || p == t) = true ∧ Fits pattern text := by
  constructor
  · intro h
    generalize hwhole : t :: text = whole at h
    cases h with
    | star => exact absurd rfl hp
    | any _ h =>
      cases hwhole
      exact ⟨by simp, h⟩
    | same _ _ h =>
      cases hwhole
      exact ⟨by simp, h⟩
  · rintro ⟨hagree, h⟩
    exact h.pass hagree

/-- Only stars fit the empty text. -/
theorem fits_nil_iff : Fits pattern [] ↔ pattern.all (· == '*') = true := by
  induction pattern with
  | nil => simp [Fits.nil]
  | cons p pattern ih =>
    by_cases hp : p = '*'
    · subst hp
      simp [fits_star_iff, ih]
    · constructor
      · intro h
        generalize hwhole : ([] : List Char) = whole at h
        cases h with
        | star => exact absurd rfl hp
        | any => cases hwhole
        | same => cases hwhole
      · simp [hp]

/-- Every character of the pattern but the stars takes a character of the text. -/
theorem Fits.countP_le (h : Fits pattern text) : pattern.countP (· != '*') ≤ text.length := by
  induction h with
  | nil => simp
  | star taken _ ih =>
    simp only [List.countP_cons, List.length_append]
    simp
    omega
  | any t _ ih => simpa using ih
  | same hstar _ _ ih => simpa [hstar] using ih

/-- A part without stars takes as many characters as it has. -/
theorem Fits.of_append {front : List Char} (h : Fits (front ++ pattern) text)
    (hfront : '*' ∉ front) :
    ∃ other, other <:+ text ∧ front.length + other.length = text.length ∧ Fits pattern other := by
  induction front generalizing text with
  | nil => exact ⟨text, List.suffix_refl _, by simp, h⟩
  | cons p front ih =>
    have hp : p ≠ '*' := fun heq => hfront (by simp [heq])
    have hrest : '*' ∉ front := fun hmem => hfront (List.mem_cons_of_mem _ hmem)
    cases text with
    | nil =>
      rw [fits_nil_iff] at h
      simp [hp] at h
    | cons t text =>
      obtain ⟨-, h⟩ := (fits_cons_iff hp).1 h
      obtain ⟨other, hsuffix, hlength, hfits⟩ := ih h hrest
      refine ⟨other, hsuffix.trans (List.suffix_cons _ _), ?_, hfits⟩
      simp only [List.length_cons]
      omega

/-! ## What is accepted fits -/

/-- If the pattern and the text end together, the text fits. -/
theorem fits_of_advance_eq_finished (h : advance pattern text = .finished true) :
    Fits pattern text := by
  fun_induction advance pattern text with
  | case1 pattern =>
    simp only [Progress.finished.injEq] at h
    exact fits_nil_iff.2 h
  | case2 => cases h
  | case3 p pattern t text hagree ih => exact (ih h).pass hagree
  | case4 => cases h
  | case5 => cases h

/-- If what is left fits from a star on, the whole text fits. -/
theorem fits_of_advance_eq_star (h : advance pattern text = .star rest behind)
    (hfits : Fits ('*' :: rest) behind) : Fits pattern text := by
  fun_induction advance pattern text with
  | case1 => cases h
  | case2 => cases h
  | case3 p pattern t text hagree ih => exact (ih h).pass hagree
  | case4 p pattern t text _ hstar =>
    cases h
    rw [beq_iff_eq] at hstar
    rw [hstar]
    exact hfits
  | case5 => cases h

/-- What the search behind a star accepts fits with this star. -/
theorem fits_of_matchBehindStar (h : matchBehindStar pattern text = true) :
    Fits ('*' :: pattern) text := by
  fun_induction matchBehindStar pattern text with
  | case1 pattern text answer hadvance =>
    subst h
    exact fits_star_iff.2 ⟨text, List.suffix_refl _, fits_of_advance_eq_finished hadvance⟩
  | case2 pattern text rest behind hadvance ih =>
    exact fits_star_iff.2 ⟨text, List.suffix_refl _, fits_of_advance_eq_star hadvance (ih h)⟩
  | case3 => cases h
  | case4 pattern t text _ ih => exact (ih h).star_of_suffix (List.suffix_cons _ _)

/-- What the matcher accepts fits. -/
theorem fits_of_matchChars (h : matchChars pattern text = true) : Fits pattern text := by
  unfold matchChars at h
  split at h
  · rename_i answer hadvance
    subst h
    exact fits_of_advance_eq_finished hadvance
  · rename_i rest behind hadvance
    exact fits_of_advance_eq_star hadvance (fits_of_matchBehindStar h)
  · cases h

/-! ## What fits is accepted, in a text without stars -/

/-- A character that agrees with one of a text without stars is no star itself. -/
theorem ne_star_of_agree (hplain : '*' ∉ t :: text) (hagree : (p == '?' || p == t) = true) :
    p ≠ '*' := by
  rintro rfl
  obtain rfl : '*' = t := by simpa using hagree
  exact hplain List.mem_cons_self

/-- One way up to the next star decides whether a text without stars fits, or leaves it to what
stands behind. -/
theorem advance_of_fits (hplain : '*' ∉ text) (h : Fits pattern text) :
    advance pattern text = .finished true ∨
      ∃ rest behind, advance pattern text = .star rest behind ∧ Fits ('*' :: rest) behind := by
  fun_induction advance pattern text with
  | case1 pattern =>
    left
    rw [fits_nil_iff.1 h]
  | case2 => cases h
  | case3 p pattern t text hagree ih =>
    have hp := ne_star_of_agree hplain hagree
    exact ih (List.not_mem_of_not_mem_cons hplain) ((fits_cons_iff hp).1 h).2
  | case4 p pattern t text _ hstar =>
    rw [beq_iff_eq] at hstar
    exact Or.inr ⟨pattern, t :: text, rfl, hstar ▸ h⟩
  | case5 p pattern t text hdiffer hstar =>
    exact absurd ((fits_cons_iff (by simpa using hstar)).1 h).1 hdiffer

/-- If the text ends early, the pattern has more characters that are no stars than the text has. -/
theorem length_lt_of_advance_eq_finished (hplain : '*' ∉ text)
    (h : advance pattern text = .finished false) : text.length < pattern.countP (· != '*') := by
  fun_induction advance pattern text with
  | case1 pattern =>
    simp only [Progress.finished.injEq, List.all_eq_false] at h
    simpa [List.countP_pos_iff] using h
  | case2 => cases h
  | case3 p pattern t text hagree ih =>
    have hp := ne_star_of_agree hplain hagree
    have hless := ih (List.not_mem_of_not_mem_cons hplain) h
    simpa [hp] using hless
  | case4 => cases h
  | case5 => cases h

/-- Up to its first star the pattern takes as many characters of the text as it has. -/
theorem front_of_advance_eq_star (hplain : '*' ∉ text)
    (h : advance pattern text = .star rest behind) :
    behind <:+ text ∧ ∃ front, pattern = front ++ '*' :: rest ∧ '*' ∉ front ∧
      front.length + behind.length = text.length := by
  fun_induction advance pattern text with
  | case1 => cases h
  | case2 => cases h
  | case3 p pattern t text hagree ih =>
    have hp := ne_star_of_agree hplain hagree
    obtain ⟨hsuffix, front, rfl, hfront, hlength⟩ :=
      ih (List.not_mem_of_not_mem_cons hplain) h
    refine ⟨hsuffix.trans (List.suffix_cons _ _), p :: front, rfl, ?_, ?_⟩
    · simp [hfront, hp.symm]
    · simp only [List.length_cons]
      omega
  | case4 p pattern t text _ hstar =>
    cases h
    rw [beq_iff_eq] at hstar
    exact ⟨List.suffix_refl _, [], by simp [hstar], by simp, by simp⟩
  | case5 => cases h

/-- Where the part in front of a star fits for the first time, what stands behind has the most text:
wherever else the whole fits, it fits here too. -/
theorem fits_behind_of_advance_eq_star (hplain : '*' ∉ text)
    (h : advance pattern text = .star rest behind) {other : List Char} (hsuffix : other <:+ text)
    (hfits : Fits pattern other) : Fits ('*' :: rest) behind := by
  obtain ⟨hbehind, front, rfl, hfront, hlength⟩ := front_of_advance_eq_star hplain h
  obtain ⟨last, hlast, hlength', hfits⟩ := hfits.of_append hfront
  refine hfits.star_of_suffix (List.suffix_of_suffix_length_le (hlast.trans hsuffix) hbehind ?_)
  have hle := hsuffix.length_le
  omega

/-- The search behind a star accepts a text without stars that fits with this star. -/
theorem matchBehindStar_of_fits (hplain : '*' ∉ text) (h : Fits ('*' :: pattern) text) :
    matchBehindStar pattern text = true := by
  fun_induction matchBehindStar pattern text with
  | case1 pattern text answer hadvance =>
    cases answer with
    | true => rfl
    | false =>
      obtain ⟨other, hsuffix, hfits⟩ := fits_star_iff.1 h
      have hless := length_lt_of_advance_eq_finished hplain hadvance
      have hneeded := hfits.countP_le
      have hle := hsuffix.length_le
      omega
  | case2 pattern text rest behind hadvance ih =>
    obtain ⟨other, hsuffix, hfits⟩ := fits_star_iff.1 h
    have hbehind := (front_of_advance_eq_star hplain hadvance).1
    exact ih (fun hmem => hplain (hbehind.subset hmem))
      (fits_behind_of_advance_eq_star hplain hadvance hsuffix hfits)
  | case3 pattern hadvance => simp [advance] at hadvance
  | case4 pattern t text hadvance ih =>
    obtain ⟨other, hsuffix, hfits⟩ := fits_star_iff.1 h
    -- The whole text does not fit, so the star takes its first character.
    have hne : other ≠ t :: text := by
      rintro rfl
      have hnot := advance_of_fits hplain hfits
      simp [hadvance] at hnot
    have hshorter : other <:+ text := (List.suffix_cons_iff.1 hsuffix).resolve_left hne
    exact ih (List.not_mem_of_not_mem_cons hplain)
      (fits_star_iff.2 ⟨other, hshorter, hfits⟩)

/-- The matcher accepts a text without stars that fits. -/
theorem matchChars_of_fits (hplain : '*' ∉ text) (h : Fits pattern text) :
    matchChars pattern text = true := by
  unfold matchChars
  rcases advance_of_fits hplain h with hadvance | ⟨rest, behind, hadvance, hfits⟩
  · rw [hadvance]
  · rw [hadvance]
    refine matchBehindStar_of_fits (fun hmem => hplain ?_) hfits
    exact (front_of_advance_eq_star hplain hadvance).1.subset hmem

end Fits

/-! ## The search as a loop -/

/-- Where a search stands. -/
structure Search where
  /-- What is left of the pattern. -/
  pattern : List Char
  /-- What is left of the text. -/
  text : List Char
  /-- The pattern behind the last star, and the text from where that star stops taking. -/
  lastStar : Option (List Char × List Char)

namespace Search

/-- The start of a search. -/
def start (pattern text : List Char) : Search := ⟨pattern, text, none⟩

/-- Goes back to the last star, which takes one character more; without a star the answer is no. -/
def retry (lastStar : Option (List Char × List Char)) : Search ⊕ Bool :=
  match lastStar with
  | none => .inr false
  | some (behind, text) => .inl ⟨behind, text.tail, some (behind, text.tail)⟩

/-- One round of a search: where it stands then, or its answer. -/
def next : Search → Search ⊕ Bool
  | ⟨pattern, [], _⟩ => .inr (pattern.all (· == '*'))
  | ⟨[], _ :: _, lastStar⟩ => retry lastStar
  | ⟨p :: pattern, t :: text, lastStar⟩ =>
    if p == '?' || p == t then .inl ⟨pattern, text, lastStar⟩
    else if p == '*' then .inl ⟨pattern, t :: text, some (pattern, t :: text)⟩
    else retry lastStar

/-- The rounds of a search lead to this answer. -/
inductive Ends : Search → Bool → Prop
  | answer {search : Search} {answer : Bool} (h : search.next = .inr answer) : Ends search answer
  | round {search search' : Search} {answer : Bool} (h : search.next = .inl search')
      (hrest : Ends search' answer) : Ends search answer

variable {search : Search} {pattern text : List Char} {lastStar : Option (List Char × List Char)}
  {answer other : Bool}

/-- A search has one answer only. -/
theorem Ends.unique (h : search.Ends answer) (h' : search.Ends other) : answer = other := by
  induction h with
  | answer h =>
    cases h' with
    | answer h' =>
      rw [h] at h'
      cases h'
      rfl
    | round h' =>
      rw [h] at h'
      cases h'
  | round h _ ih =>
    cases h' with
    | answer h' =>
      rw [h] at h'
      cases h'
    | round h' hrest' =>
      rw [h] at h'
      cases h'
      exact ih hrest'

/-- The search ends as the advance says if the advance comes to an end. -/
theorem ends_of_advance_eq_finished (h : advance pattern text = .finished answer) :
    Ends ⟨pattern, text, lastStar⟩ answer := by
  fun_induction advance pattern text with
  | case1 pattern =>
    cases h
    exact .answer rfl
  | case2 => cases h
  | case3 p pattern t text hagree ih => exact .round (if_pos hagree) (ih h)
  | case4 => cases h
  | case5 => cases h

/-- The search ends as it does from the star that the advance comes to. -/
theorem ends_of_advance_eq_star {rest behind : List Char}
    (h : advance pattern text = .star rest behind)
    (hrest : Ends ⟨rest, behind, some (rest, behind)⟩ answer) :
    Ends ⟨pattern, text, lastStar⟩ answer := by
  fun_induction advance pattern text with
  | case1 => cases h
  | case2 => cases h
  | case3 p pattern t text hagree ih => exact .round (if_pos hagree) (ih h)
  | case4 p pattern t text hdiffer hstar =>
    cases h
    exact .round ((if_neg hdiffer).trans (if_pos hstar)) hrest
  | case5 => cases h

/-- The search ends as it does from its last star if the advance is stuck. -/
theorem ends_of_advance_eq_stuck (h : advance pattern text = .stuck)
    (hretry : ∀ search : Search, search.next = retry lastStar → search.Ends answer) :
    Ends ⟨pattern, text, lastStar⟩ answer := by
  fun_induction advance pattern text with
  | case1 => cases h
  | case2 t text => exact hretry _ rfl
  | case3 p pattern t text hagree ih => exact .round (if_pos hagree) (ih h)
  | case4 => cases h
  | case5 p pattern t text hdiffer hstar => exact hretry _ ((if_neg hdiffer).trans (if_neg hstar))

/-- From a star on, the search ends with the answer of the matcher behind this star. -/
theorem ends_matchBehindStar (pattern text : List Char) :
    Ends ⟨pattern, text, some (pattern, text)⟩ (matchBehindStar pattern text) := by
  fun_induction matchBehindStar pattern text with
  | case1 pattern text answer hadvance => exact ends_of_advance_eq_finished hadvance
  | case2 pattern text rest behind hadvance ih => exact ends_of_advance_eq_star hadvance ih
  | case3 pattern hadvance => simp [advance] at hadvance
  | case4 pattern t text hadvance ih =>
    refine ends_of_advance_eq_stuck hadvance ?_
    intro search hretry
    exact .round hretry ih

/-- From every start the search ends, with the answer of the matcher. -/
theorem ends_matchChars (pattern text : List Char) :
    (start pattern text).Ends (matchChars pattern text) := by
  unfold start matchChars
  split
  · rename_i answer hadvance
    exact ends_of_advance_eq_finished hadvance
  · rename_i rest behind hadvance
    exact ends_of_advance_eq_star hadvance (ends_matchBehindStar rest behind)
  · rename_i hadvance
    exact ends_of_advance_eq_stuck hadvance fun _ hretry => .answer hretry

/-- From the start, the search ends with the answer of the matcher and no other. -/
theorem ends_start_iff {pattern text : List Char} {answer : Bool} :
    (start pattern text).Ends answer ↔ answer = matchChars pattern text := by
  constructor
  · intro h
    exact h.unique (ends_matchChars pattern text)
  · rintro rfl
    exact ends_matchChars pattern text

end Search

/-- The search for a pattern in a text, both lowered, ends with the answer of the matcher and no
other.  If the answer is yes, the text fits the pattern; and if a text without stars fits it, the
answer is yes. -/
theorem matches?_ends_and_fits (pattern text : String) :
    (∀ answer, (Search.start (Text.lowerChars pattern.toList)
        (Text.lowerChars text.toList)).Ends answer ↔ answer = matches? pattern text) ∧
    (matches? pattern text = true →
      Fits (Text.lowerChars pattern.toList) (Text.lowerChars text.toList)) ∧
    ('*' ∉ Text.lowerChars text.toList →
      Fits (Text.lowerChars pattern.toList) (Text.lowerChars text.toList) →
      matches? pattern text = true) :=
  ⟨fun _ => Search.ends_start_iff, fits_of_matchChars, matchChars_of_fits⟩

end CodeListing.Glob
