import CodeListing.Proofs.LowerCase
import CodeListing.Proofs.NamePatterns

/-!
# A star at the end of a pattern

A star at the end of a pattern should take whatever follows a text that matches.  It does unless a
star follows: the matcher looks for agreement first, so a star of the pattern that meets a star of
the text takes this one character and no other.

`Search.ends_starred_iff` compares the searches for a pattern with and without a star at its end,
round by round.  They part only where the pattern is used up, and `matches?_append_star_iff` says
exactly when the star is of use there.
-/

set_option autoImplicit false

namespace CodeListing.Glob

namespace Search

/-- The rounds of a search lead from one place to another. -/
inductive Comes : Search → Search → Prop
  | refl (search : Search) : Comes search search
  | round {search search' search'' : Search} (h : search.next = .inl search')
      (hrest : Comes search' search'') : Comes search search''

variable {search search' : Search} {answer : Bool}

/-- Every place on the way of a search leads to the same answer. -/
theorem Comes.ends_iff (h : search.Comes search') : search.Ends answer ↔ search'.Ends answer := by
  induction h with
  | refl => exact Iff.rfl
  | round h _ ih =>
    rw [← ih]
    constructor
    · intro hends
      cases hends with
      | answer h' =>
        rw [h] at h'
        cases h'
      | round h' hrest =>
        rw [h] at h'
        cases h'
        exact hrest
    · intro hends
      exact .round h hends

/-! ## The same search with a star at the end of the pattern -/

/-- The place with a star at the end of the pattern. -/
def starred (search : Search) : Search where
  pattern := search.pattern ++ ['*']
  text := search.text
  lastStar := search.lastStar.map fun (behind, text) => (behind ++ ['*'], text)

/-- With a star at the end of the pattern the search goes back to its last star as it does without.
-/
theorem retry_starred (lastStar : Option (List Char × List Char)) :
    retry (lastStar.map fun (behind, text) => (behind ++ ['*'], text)) =
      (retry lastStar).map starred id := by
  cases lastStar with
  | none => rfl
  | some last => rfl

/-- With a star at the end of the pattern a round does the same, as long as there is pattern left.
-/
theorem next_starred_cons (p : Char) (pattern text : List Char)
    (lastStar : Option (List Char × List Char)) :
    (starred ⟨p :: pattern, text, lastStar⟩).next =
      (next ⟨p :: pattern, text, lastStar⟩).map starred id := by
  cases text with
  | nil => simp [starred, next]
  | cons t text =>
    simp only [starred, List.cons_append, next]
    split
    · rfl
    · split
      · rfl
      · exact retry_starred lastStar

/-- The rest of a text begins with a star, and more follows. -/
def StarGoesOn (rest : List Char) : Prop :=
  ∃ t text, rest = '*' :: t :: text

/-- The search gets to the end of the pattern at a place of the text where a further star would be
of use. -/
def HasUseForStar (search : Search) : Prop :=
  ∃ rest lastStar, search.Comes ⟨[], rest, lastStar⟩ ∧ ¬ StarGoesOn rest

/-- A search that comes to one with use for a further star has use for it. -/
theorem Comes.hasUseForStar (h : search.Comes search') (hpasses : search'.HasUseForStar) :
    search.HasUseForStar := by
  induction h with
  | refl => exact hpasses
  | round h _ ih =>
    obtain ⟨rest, lastStar, hcomes, hrest⟩ := ih hpasses
    exact ⟨rest, lastStar, .round h hcomes, hrest⟩

/-- If a further star is not of use here, it is so exactly if it is somewhere further on. -/
theorem hasUseForStar_iff (hhere : search.pattern = [] → StarGoesOn search.text) :
    search.HasUseForStar ↔ ∃ search', search.next = .inl search' ∧ search'.HasUseForStar := by
  constructor
  · rintro ⟨rest, lastStar, hcomes, hrest⟩
    cases hcomes with
    | refl => exact absurd (hhere rfl) hrest
    | round h hcomes => exact ⟨_, h, rest, lastStar, hcomes, hrest⟩
  · rintro ⟨search', h, rest, lastStar, hcomes, hrest⟩
    exact ⟨rest, lastStar, .round h hcomes, hrest⟩

/-- If a further star is not of use here, the search with it does what the search without it does,
perhaps after the star has taken a star of the text. -/
theorem exists_next_starred (hhere : search.pattern = [] → StarGoesOn search.text) :
    ∃ place, search.starred.Comes place ∧ place.next = search.next.map starred id := by
  obtain ⟨pattern, text, lastStar⟩ := search
  cases pattern with
  | cons p pattern => exact ⟨_, .refl _, next_starred_cons p pattern text lastStar⟩
  | nil =>
    obtain ⟨t, rest, htext⟩ := hhere rfl
    obtain rfl : text = '*' :: t :: rest := htext
    exact ⟨_, .round rfl (.refl _), retry_starred lastStar⟩

/-- If the text ends at a pattern of nothing but stars, the answer is yes. -/
theorem answer_of_all_star {pattern text : List Char} {answer : Bool}
    (h : pattern.all (· == '*') = true) (hadvance : advance pattern text = .finished answer) :
    answer = true := by
  fun_induction advance pattern text with
  | case1 pattern =>
    cases hadvance
    exact h
  | case2 => cases hadvance
  | case3 p pattern t text _ ih =>
    rw [List.all_cons, Bool.and_eq_true] at h
    exact ih h.2 hadvance
  | case4 => cases hadvance
  | case5 => cases hadvance

/-- If a pattern is nothing but stars, so is what is left of it behind its first star. -/
theorem all_star_of_advance {pattern text rest behind : List Char}
    (h : pattern.all (· == '*') = true) (hadvance : advance pattern text = .star rest behind) :
    rest.all (· == '*') = true := by
  fun_induction advance pattern text with
  | case1 => cases hadvance
  | case2 => cases hadvance
  | case3 p pattern t text _ ih =>
    rw [List.all_cons, Bool.and_eq_true] at h
    exact ih h.2 hadvance
  | case4 p pattern t text =>
    cases hadvance
    rw [List.all_cons, Bool.and_eq_true] at h
    exact h.2
  | case5 => cases hadvance

/-- A star behind which nothing is left of the pattern takes the rest of the text. -/
theorem matchBehindStar_of_all_star {pattern : List Char} (h : pattern.all (· == '*') = true)
    (text : List Char) : matchBehindStar pattern text = true := by
  fun_induction matchBehindStar pattern text with
  | case1 pattern text answer hadvance => exact answer_of_all_star h hadvance
  | case2 pattern text rest behind hadvance ih => exact ih (all_star_of_advance h hadvance)
  | case3 pattern hadvance => simp [advance] at hadvance
  | case4 pattern t text _ ih => exact ih h

/-- Stars take whatever follows if that does not begin with a star. -/
theorem ends_true_of_all_star {pattern text : List Char} {t : Char} (ht : t ≠ '*')
    (hstars : pattern.all (· == '*') = true) (lastStar : Option (List Char × List Char)) :
    Ends ⟨'*' :: pattern, t :: text, lastStar⟩ true := by
  have hends := ends_matchBehindStar pattern (t :: text)
  rw [matchBehindStar_of_all_star hstars] at hends
  have hdiffer : ¬ ('*' == '?' || '*' == t) = true := by simpa using ht.symm
  exact .round ((if_neg hdiffer).trans (if_pos rfl)) hends

/-- Where a further star is of use, it takes the rest of the text. -/
theorem ends_starred_of_useful (hhere : ¬ (search.pattern = [] → StarGoesOn search.text)) :
    search.starred.Ends true ∧ search.HasUseForStar := by
  obtain ⟨pattern, text, lastStar⟩ := search
  obtain ⟨hpattern, hgoesOn⟩ := Classical.not_imp.1 hhere
  obtain rfl : pattern = [] := hpattern
  refine ⟨?_, text, lastStar, .refl _, hgoesOn⟩
  cases text with
  | nil => exact .answer rfl
  | cons t text =>
    by_cases hstar : t = '*'
    · subst hstar
      cases text with
      | nil => exact .round rfl (.answer rfl)
      | cons t text => exact absurd ⟨t, text, rfl⟩ hgoesOn
    · exact ends_true_of_all_star hstar rfl _

/-- With a star at the end of the pattern the answer is yes exactly if it is without, or if the
search gets to the end of the pattern where this star is of use. -/
theorem ends_starred_iff (h : search.Ends answer) :
    search.starred.Ends true ↔ answer = true ∨ search.HasUseForStar := by
  induction h with
  | @answer search answer h =>
    by_cases hhere : search.pattern = [] → StarGoesOn search.text
    · obtain ⟨place, hcomes, hplace⟩ := exists_next_starred hhere
      rw [h] at hplace
      rw [hcomes.ends_iff, hasUseForStar_iff hhere, h]
      constructor
      · intro hends
        exact Or.inl ((Ends.answer hplace).unique hends)
      · rintro (rfl | ⟨_, hnext, -⟩)
        · exact .answer hplace
        · cases hnext
    · obtain ⟨hends, hpasses⟩ := ends_starred_of_useful hhere
      exact iff_of_true hends (Or.inr hpasses)
  | @round search search' answer h _ ih =>
    by_cases hhere : search.pattern = [] → StarGoesOn search.text
    · obtain ⟨place, hcomes, hplace⟩ := exists_next_starred hhere
      rw [h] at hplace
      have hround : place.Comes search'.starred := .round hplace (.refl _)
      rw [hcomes.ends_iff, hround.ends_iff, ih, hasUseForStar_iff hhere, h]
      simp
    · obtain ⟨hends, hpasses⟩ := ends_starred_of_useful hhere
      exact iff_of_true hends (Or.inr hpasses)

/-! ## The same search in a longer text -/

/-- The place with more text behind. -/
def longer (more : List Char) (search : Search) : Search where
  pattern := search.pattern
  text := search.text ++ more
  lastStar := search.lastStar.map fun (behind, text) => (behind, text ++ more)

/-- The text that is left lies behind where the last star stops taking. -/
def Orderly (search : Search) : Prop :=
  ∀ behind text, search.lastStar = some (behind, text) → search.text <:+ text

/-- A round keeps a search orderly. -/
theorem orderly_of_next (h : search.Orderly) (hnext : search.next = .inl search') :
    search'.Orderly := by
  obtain ⟨pattern, text, lastStar⟩ := search
  have hretry : retry lastStar = .inl search' → search'.Orderly := by
    intro hplace
    cases lastStar with
    | none => cases hplace
    | some last =>
      cases hplace
      rintro _ _ ⟨⟩
      exact List.suffix_refl _
  cases text with
  | nil => cases hnext
  | cons t text =>
    cases pattern with
    | nil => exact hretry hnext
    | cons p pattern =>
      simp only [next] at hnext
      split at hnext
      · cases hnext
        intro behind since hlast
        exact (List.suffix_cons _ _).trans (h behind since hlast)
      · split at hnext
        · cases hnext
          rintro _ _ ⟨⟩
          exact List.suffix_refl _
        · exact hretry hnext

/-- As long as there is text left, a round does the same in a longer text. -/
theorem next_longer (more : List Char) (h : search.Orderly) (htext : search.text ≠ []) :
    (search.longer more).next = search.next.map (longer more) id := by
  obtain ⟨pattern, text, lastStar⟩ := search
  obtain ⟨t, text, rfl⟩ := List.exists_cons_of_ne_nil htext
  have hretry : retry (lastStar.map fun (behind, text) => (behind, text ++ more)) =
      (retry lastStar).map (longer more) id := by
    cases lastStar with
    | none => rfl
    | some last =>
      obtain ⟨behind, since⟩ := last
      have hne : since ≠ [] := by
        rintro rfl
        exact List.cons_ne_nil _ _ (List.suffix_nil.1 (h behind [] rfl))
      simp [retry, longer, List.tail_append_of_ne_nil hne]
  cases pattern with
  | nil => exact hretry
  | cons p pattern =>
    simp only [longer, List.cons_append, next]
    split
    · rfl
    · split
      · rfl
      · exact hretry

/-- The search goes on only if there is text left. -/
theorem text_ne_nil_of_next (h : search.next = .inl search') : search.text ≠ [] := by
  obtain ⟨pattern, text, lastStar⟩ := search
  rintro ⟨⟩
  cases h

/-- The answer is yes only at the end of the text, with nothing but stars left of the pattern. -/
theorem of_next_eq_true (h : search.next = .inr true) :
    search.text = [] ∧ search.pattern.all (· == '*') = true := by
  obtain ⟨pattern, text, lastStar⟩ := search
  have hretry : retry lastStar ≠ .inr true := by
    cases lastStar with
    | none => simp [retry]
    | some last => simp [retry]
  cases text with
  | nil =>
    simp only [next, Sum.inr.injEq] at h
    exact ⟨rfl, h⟩
  | cons t text =>
    cases pattern with
    | nil => exact absurd h hretry
    | cons p pattern =>
      simp only [next] at h
      split at h
      · cases h
      · split at h
        · cases h
        · exact absurd h hretry

/-- If the answer is yes, the search in a longer text gets to the end of the shorter one with only
stars left of the pattern. -/
theorem comes_longer (more : List Char) (h : search.Ends true) (horderly : search.Orderly) :
    ∃ pattern lastStar, (search.longer more).Comes ⟨pattern, more, lastStar⟩ ∧
      pattern.all (· == '*') = true := by
  generalize hanswer : true = answer at h
  induction h with
  | @answer search answer h =>
    subst hanswer
    obtain ⟨pattern, text, lastStar⟩ := search
    obtain ⟨htext, hstars⟩ := of_next_eq_true h
    obtain rfl : text = [] := htext
    exact ⟨pattern, _, .refl _, hstars⟩
  | @round search search' answer h _ ih =>
    have hnext := next_longer more horderly (text_ne_nil_of_next h)
    rw [h] at hnext
    obtain ⟨pattern, lastStar, hcomes, hstars⟩ := ih (orderly_of_next horderly h) hanswer
    exact ⟨pattern, lastStar, .round hnext hcomes, hstars⟩

/-- From the end of the shorter text on, either the answer is yes, or a further star is of use there
unless a star follows. -/
theorem ends_or_hasUseForStar {pattern more : List Char}
    (hstars : pattern.all (· == '*') = true) (hmore : more.head? ≠ some '*')
    (lastStar : Option (List Char × List Char)) :
    Ends ⟨pattern, more, lastStar⟩ true ∨ HasUseForStar ⟨pattern, more, lastStar⟩ := by
  cases more with
  | nil => exact Or.inl (.answer (congrArg Sum.inr hstars))
  | cons t more =>
    have ht : t ≠ '*' := by simpa using hmore
    cases pattern with
    | nil =>
      refine Or.inr ⟨t :: more, lastStar, .refl _, ?_⟩
      rintro ⟨_, _, ⟨⟩⟩
      exact ht rfl
    | cons p pattern =>
      rw [List.all_cons, Bool.and_eq_true, beq_iff_eq] at hstars
      obtain ⟨rfl, hstars⟩ := hstars
      exact Or.inl (ends_true_of_all_star ht hstars lastStar)

end Search

/-- A text that matches goes on: with a star at its end the pattern matches all of it if no star
follows, and else exactly if it does without this star or its search gets to its end where the star
is of use. -/
theorem matchChars_append_star_iff {pattern text : List Char}
    (h : matchChars pattern text = true) (more : List Char) :
    matchChars (pattern ++ ['*']) (text ++ more) = true ↔
      more.head? ≠ some '*' ∨ matchChars pattern (text ++ more) = true ∨
        (Search.start pattern (text ++ more)).HasUseForStar := by
  have hstarred : matchChars (pattern ++ ['*']) (text ++ more) = true ↔
      matchChars pattern (text ++ more) = true ∨
        (Search.start pattern (text ++ more)).HasUseForStar := by
    rw [eq_comm, ← Search.ends_start_iff]
    exact Search.ends_starred_iff (Search.ends_matchChars pattern (text ++ more))
  rw [hstarred]
  constructor
  · exact Or.inr
  · rintro (hmore | hrest)
    · have hends : (Search.start pattern text).Ends true := Search.ends_start_iff.2 h.symm
      have horderly : (Search.start pattern text).Orderly := by
        rintro _ _ ⟨⟩
      obtain ⟨stars, lastStar, hcomes, hstars⟩ := Search.comes_longer more hends horderly
      rcases Search.ends_or_hasUseForStar hstars hmore lastStar with hends | hpasses
      · exact Or.inl (Search.ends_start_iff.1 (hcomes.ends_iff.2 hends)).symm
      · exact Or.inr (hcomes.hasUseForStar hpasses)
    · exact hrest

/-! ## Texts that are not yet lowered -/

/-- No run leads down to a star. -/
theorem star_lt_targets : ∀ run ∈ Text.caseRuns, (0x2A : Int) < run.first + run.offset := by
  decide +kernel

/-- Only the code of the star gives a star. -/
theorem eq_of_ofNat_eq_star {code : Nat} (h : Char.ofNat code = '*') : code = 0x2A := by
  by_cases hvalid : code.isValidChar
  · have hchar : Char.ofNat code = Char.ofNatAux code hvalid := dif_pos hvalid
    rw [hchar] at h
    exact congrArg Char.toNat h
  · have hzero : Char.ofNat code = '\x00' := dif_neg hvalid
    rw [hzero] at h
    exact absurd h (by decide)

/-- No other plain character becomes a star in lower case. -/
theorem star_of_toLower_ascii : ∀ n < 0x80, (Char.ofNat n).toLower = '*' → n = 0x2A := by
  decide +kernel

/-- Only a star becomes a star. -/
theorem eq_star_of_mem_lowerChar {c : Char} (h : '*' ∈ Text.lowerChar c) : c = '*' := by
  unfold Text.lowerChar at h
  split at h
  · rename_i hascii
    rw [List.mem_singleton] at h
    have hcode := star_of_toLower_ascii c.toNat hascii (by rw [Char.ofNat_toNat, ← h])
    rw [← Char.ofNat_toNat c, hcode]
  · split at h
    · simp at h
    · split at h
      · rename_i run hfind
        have hrun := star_lt_targets run (List.mem_of_find?_eq_some hfind)
        have hcovers := List.find?_some hfind
        simp only [Text.CaseRun.covers, Bool.and_eq_true, decide_eq_true_eq] at hcovers
        rw [List.mem_singleton] at h
        have hcode := eq_of_ofNat_eq_star h.symm
        omega
      · rw [List.mem_singleton] at h
        exact h.symm

/-- A lowered text starts with a star if the text does. -/
theorem head?_lowerChars_eq_star_iff {text : List Char} :
    (Text.lowerChars text).head? = some '*' ↔ text.head? = some '*' := by
  cases text with
  | nil => simp [Text.lowerChars]
  | cons c text =>
    have hsome : (Text.lowerChar c).head?.isSome := by
      simp [Text.ne_nil_of_lowerChar]
    rw [Text.lowerChars, List.flatMap_cons, List.head?_append, Option.or_of_isSome hsome,
      List.head?_cons, Option.some.injEq]
    constructor
    · intro hhead
      exact eq_star_of_mem_lowerChar (List.mem_of_mem_head? hhead)
    · rintro rfl
      rfl

/-- A star at the end of a pattern stays there in lower case. -/
theorem lowerChars_append_star (pattern : String) :
    Text.lowerChars (pattern ++ "*").toList = Text.lowerChars pattern.toList ++ ['*'] := by
  rw [String.toList_append, Text.lowerChars, List.flatMap_append]
  rfl

/-- A text that matches goes on: with a star at its end the pattern matches all of it if no star
follows, and else exactly if it does without this star or the search for it gets to its end where a
further star is of use. -/
theorem matches?_append_star_iff {pattern text : String} (h : matches? pattern text = true)
    (more : String) :
    matches? (pattern ++ "*") (text ++ more) = true ↔
      more.toList.head? ≠ some '*' ∨ matches? pattern (text ++ more) = true ∨
        (Search.start (Text.lowerChars pattern.toList)
          (Text.lowerChars (text ++ more).toList)).HasUseForStar := by
  unfold matches? at h ⊢
  rw [lowerChars_append_star]
  have hlower : Text.lowerChars (text ++ more).toList =
      Text.lowerChars text.toList ++ Text.lowerChars more.toList := by
    rw [String.toList_append, Text.lowerChars, List.flatMap_append]
    rfl
  rw [hlower, matchChars_append_star_iff h, Ne, head?_lowerChars_eq_star_iff]

/-- A star at the end takes a list of parameters, stars inside of it included. -/
theorem matches?_append_star_of_parameters :
    matches? "*.Copy" "App.Buffer.Copy" = true ∧
      matches? ("*.Copy" ++ "*") ("App.Buffer.Copy" ++ "(Byte*, Int32)") = true := by
  have hpattern : Text.lowerChars "*.Copy".toList = ['*', '.', 'c', 'o', 'p', 'y'] := by
    decide +kernel
  have htext : Text.lowerChars "App.Buffer.Copy".toList =
      ['a', 'p', 'p', '.', 'b', 'u', 'f', 'f', 'e', 'r', '.', 'c', 'o', 'p', 'y'] := by
    decide +kernel
  have hmatches : matches? "*.Copy" "App.Buffer.Copy" = true := by
    rw [matches?, hpattern, htext]
    simp [matchChars, advance, matchBehindStar]
  exact ⟨hmatches, (matches?_append_star_iff hmatches "(Byte*, Int32)").2 (Or.inl (by decide))⟩

/-- A star at the end that meets a star takes no more than this. -/
theorem not_matches?_append_star :
    matches? "F(Byte" "F(Byte" = true ∧
      matches? ("F(Byte" ++ "*") ("F(Byte" ++ "*, Int32)") = false := by
  constructor
  · decide +kernel
  · decide +kernel

end CodeListing.Glob
