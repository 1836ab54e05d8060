/-!
# Looking inside a text

Occurrences of one text in another, replacement of all of them from left to right, and the cutting
of a text at separators.
-/

set_option autoImplicit false

namespace CodeListing.Text

/-- `needle` stands somewhere in the text. -/
def occursIn (needle : List Char) : List Char → Bool
  | [] => needle.isEmpty
  | c :: rest => needle.isPrefixOf (c :: rest) || occursIn needle rest

/-- What occurs in a text occurs in it with anything put in front. -/
theorem occursIn_append {needle text : List Char} (before : List Char)
    (h : occursIn needle text = true) : occursIn needle (before ++ text) = true := by
  induction before with
  | nil => exact h
  | cons c rest ih => rw [List.cons_append, occursIn, ih, Bool.or_true]

/-- `needle` stands somewhere in the text. -/
def containsText (text needle : String) : Bool :=
  occursIn needle.toList text.toList

/-- What stands behind the first occurrence of `needle` in the text. -/
def afterFirst? (needle : List Char) : List Char → Option (List Char)
  | [] => if needle.isEmpty then some [] else none
  | c :: rest =>
    if needle.isPrefixOf (c :: rest) then some ((c :: rest).drop needle.length)
    else afterFirst? needle rest

/-- The text with every occurrence of a non-empty `needle` replaced, from left to right and without
overlaps. -/
def replaceAll (needle replacement : List Char) : List Char → List Char
  | [] => []
  | c :: rest =>
    if needle.isPrefixOf (c :: rest) && !needle.isEmpty then
      replacement ++ replaceAll needle replacement (rest.drop (needle.length - 1))
    else c :: replaceAll needle replacement rest
termination_by text => text.length
decreasing_by
  · simp only [List.length_drop, List.length_cons]; omega
  · simp

/-- The text with every occurrence of a non-empty `needle` replaced. -/
def replaceText (text needle replacement : String) : String :=
  String.ofList (replaceAll needle.toList replacement.toList text.toList)

/-- The pieces between the characters that satisfy `separator`; there is always one. -/
def splitAt (separator : Char → Bool) : List Char → List (List Char)
  | [] => [[]]
  | c :: rest =>
    if separator c then [] :: splitAt separator rest
    else
      match splitAt separator rest with
      | [] => [[c]]
      | piece :: pieces => (c :: piece) :: pieces

/-- Without a separator there is one piece. -/
theorem splitAt_of_forall {separator : Char → Bool} {piece : List Char}
    (h : ∀ c ∈ piece, separator c = false) : splitAt separator piece = [piece] := by
  induction piece with
  | nil => rfl
  | cons c rest ih =>
    rw [splitAt, ih fun d hd => h d (List.mem_cons_of_mem c hd)]
    simp [h c]

/-- The first piece ends at the first separator. -/
theorem splitAt_append {separator : Char → Bool} {piece : List Char} {mark : Char}
    (h : ∀ c ∈ piece, separator c = false) (hmark : separator mark = true) (rest : List Char) :
    splitAt separator (piece ++ mark :: rest) = piece :: splitAt separator rest := by
  induction piece with
  | nil => simp [splitAt, hmark]
  | cons c piece ih =>
    rw [List.cons_append, splitAt, ih fun d hd => h d (List.mem_cons_of_mem c hd)]
    simp [h c]

/-- No piece has a separator. -/
theorem separator_eq_false_of_mem_splitAt {separator : Char → Bool} {text piece : List Char}
    (hpiece : piece ∈ splitAt separator text) {c : Char} (hc : c ∈ piece) :
    separator c = false := by
  induction text generalizing piece with
  | nil =>
    rw [splitAt, List.mem_singleton] at hpiece
    subst hpiece
    cases hc
  | cons d rest ih =>
    rw [splitAt] at hpiece
    split at hpiece
    · rcases List.mem_cons.1 hpiece with rfl | hpiece
      · cases hc
      · exact ih hpiece hc
    · rename_i hd
      have hd : separator d = false := by simpa using hd
      split at hpiece
      · rw [List.mem_singleton] at hpiece
        subst hpiece
        rw [List.mem_singleton] at hc
        rwa [hc]
      · rename_i first pieces heq
        rcases List.mem_cons.1 hpiece with rfl | hpiece
        · rcases List.mem_cons.1 hc with rfl | hc
          · exact hd
          · exact ih (heq ▸ List.mem_cons_self) hc
        · exact ih (heq ▸ List.mem_cons_of_mem _ hpiece) hc

/-- What stands in front of the first mark of two equal texts is equal. -/
theorem eq_of_append_cons_eq {mark : Char} {front other rest rest' : List Char}
    (hfront : mark ∉ front) (hother : mark ∉ other)
    (h : front ++ mark :: rest = other ++ mark :: rest') : front = other := by
  induction front generalizing other with
  | nil =>
    cases other with
    | nil => rfl
    | cons c cs =>
      obtain ⟨rfl, -⟩ := List.cons.inj h
      exact absurd List.mem_cons_self hother
  | cons c cs ih =>
    cases other with
    | nil =>
      obtain ⟨rfl, -⟩ := List.cons.inj h
      exact absurd List.mem_cons_self hfront
    | cons c' cs' =>
      obtain ⟨rfl, hrest⟩ := List.cons.inj h
      rw [ih (fun hmem => hfront (List.mem_cons_of_mem _ hmem))
        (fun hmem => hother (List.mem_cons_of_mem _ hmem)) hrest]

/-- A line without the carriage return at its end. -/
def dropCarriageReturn (line : List Char) : List Char :=
  if line.getLast? == some '\r' then line.dropLast else line

/-- The lines of a text: each ends with a line feed, or with a carriage return and a line feed, or
at the end of the text, where an empty rest is no line. -/
def lineChars (text : List Char) : List (List Char) :=
  let pieces := splitAt (· == '\n') text
  let last := pieces.getLastD []
  pieces.dropLast.map dropCarriageReturn ++ (if last.isEmpty then [] else [last])

/-- No line has a line feed. -/
theorem newline_not_mem_of_mem_lineChars {text line : List Char} (h : line ∈ lineChars text) :
    '\n' ∉ line := by
  have hpiece : ∀ piece ∈ splitAt (· == '\n') text, '\n' ∉ piece := by
    intro piece hpiece hmem
    have hsep := separator_eq_false_of_mem_splitAt hpiece hmem
    simp at hsep
  rw [lineChars] at h
  rcases List.mem_append.1 h with h | h
  · obtain ⟨piece, hmem, rfl⟩ := List.mem_map.1 h
    have hpiece := hpiece piece ((List.dropLast_sublist _).subset hmem)
    unfold dropCarriageReturn
    split
    · exact fun hnewline => hpiece ((List.dropLast_sublist _).subset hnewline)
    · exact hpiece
  · split at h
    · cases h
    · rw [List.mem_singleton] at h
      rw [h, List.getLastD_eq_getLast?]
      cases hlast : (splitAt (· == '\n') text).getLast? with
      | none => exact List.not_mem_nil
      | some piece => exact hpiece piece (List.mem_of_getLast? hlast)

/-- The lines of a text. -/
def lines (text : String) : List String :=
  (lineChars text.toList).map String.ofList

/-- The text starts with `start`. -/
def startsWith (text start : String) : Bool :=
  start.toList.isPrefixOf text.toList

end CodeListing.Text
