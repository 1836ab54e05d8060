/-!
# White space

The characters of the Unicode property White_Space, and the removal of them from both ends of a
text.
-/

set_option autoImplicit false

namespace CodeListing.Text

/-- The character has the Unicode property White_Space. -/
def isBlank (c : Char) : Bool :=
  let code := c.toNat
  (0x9 ≤ code && code ≤ 0xD) || code == 0x20 || code == 0x85 || code == 0xA0 || code == 0x1680 ||
    (0x2000 ≤ code && code ≤ 0x200A) || code == 0x2028 || code == 0x2029 || code == 0x202F ||
    code == 0x205F || code == 0x3000

/-- The text is white space only. -/
def AllBlank (text : String) : Prop :=
  ∀ c ∈ text.toList, isBlank c = true

instance (text : String) : Decidable (AllBlank text) :=
  decidable_of_iff (text.toList.all isBlank = true) List.all_eq_true

/-- The characters without the white space in front of them. -/
def trimLeft (text : List Char) : List Char :=
  text.dropWhile isBlank

/-- The characters without the white space behind them. -/
def trimRight (text : List Char) : List Char :=
  (text.reverse.dropWhile isBlank).reverse

/-- The characters without the white space around them. -/
def trimChars (text : List Char) : List Char :=
  trimRight (trimLeft text)

/-- The text without the white space around it. -/
def trim (text : String) : String :=
  String.ofList (trimChars text.toList)

/-- Nothing is dropped in front of a character that does not count among those to drop. -/
theorem dropWhile_eq_self {drops : Char → Bool} {text : List Char}
    (h : ∀ c ∈ text.head?, drops c = false) : text.dropWhile drops = text := by
  cases text with
  | nil => rfl
  | cons c rest => simp [h c rfl]

/-- Nothing is trimmed off a text that neither starts nor ends with white space. -/
theorem trimChars_eq_self {text : List Char} (hfirst : ∀ c ∈ text.head?, isBlank c = false)
    (hlast : ∀ c ∈ text.getLast?, isBlank c = false) : trimChars text = text := by
  have hreverse : ∀ c ∈ text.reverse.head?, isBlank c = false := by
    rw [List.head?_reverse]
    exact hlast
  unfold trimChars trimLeft trimRight
  rw [dropWhile_eq_self hfirst, dropWhile_eq_self hreverse, List.reverse_reverse]

/-- Nothing is trimmed off a text without white space. -/
theorem trimChars_of_forall {text : List Char} (h : ∀ c ∈ text, isBlank c = false) :
    trimChars text = text :=
  trimChars_eq_self (fun c hc => h c (List.mem_of_mem_head? hc))
    (fun c hc => h c (List.mem_of_getLast? hc))

/-- White space behind a text does not count. -/
theorem trimRight_append_of_blank {after : List Char} (h : ∀ c ∈ after, isBlank c = true)
    (text : List Char) : trimRight (text ++ after) = trimRight text := by
  have hreverse : ∀ c ∈ after.reverse, isBlank c = true := by simpa using h
  unfold trimRight
  rw [List.reverse_append, List.dropWhile_append_of_pos hreverse]

/-- What stands in front of a character that is no white space is kept. -/
theorem trimRight_append_cons {mark : Char} (h : isBlank mark = false) (front rest : List Char) :
    trimRight (front ++ mark :: rest) = front ++ mark :: trimRight rest := by
  unfold trimRight
  rw [List.reverse_append, List.reverse_cons, List.append_assoc, List.dropWhile_append]
  split
  · rename_i hrest
    rw [List.isEmpty_iff] at hrest
    simp [hrest, h]
  · simp

/-- Of a text without white space in front of some character, only what stands behind that character
is trimmed. -/
theorem trimChars_append_cons {front : List Char} {mark : Char}
    (hfront : ∀ c ∈ front, isBlank c = false) (hmark : isBlank mark = false) (rest : List Char) :
    trimChars (front ++ mark :: rest) = front ++ mark :: trimRight rest := by
  have hleft : trimLeft (front ++ mark :: rest) = front ++ mark :: rest := by
    apply dropWhile_eq_self
    cases front with
    | nil => simpa using hmark
    | cons c front => simpa using hfront c List.mem_cons_self
  rw [trimChars, hleft, trimRight_append_cons hmark]

/-- White space around a text does not count. -/
theorem trimChars_append_of_blank {before after : List Char}
    (hbefore : ∀ c ∈ before, isBlank c = true) (hafter : ∀ c ∈ after, isBlank c = true)
    (text : List Char) : trimChars (before ++ text ++ after) = trimChars text := by
  unfold trimChars trimLeft
  rw [List.append_assoc, List.dropWhile_append_of_pos hbefore, List.dropWhile_append]
  split
  · -- The text is white space too, so that nothing is left on either side.
    rename_i hblank
    rw [List.isEmpty_iff] at hblank
    have hnone : after.dropWhile isBlank = [] := by
      rw [← List.append_nil after, List.dropWhile_append_of_pos hafter]
      rfl
    rw [hblank, hnone]
  · exact trimRight_append_of_blank hafter _

/-- Behind the blanks at its front a text does not start with a blank. -/
theorem isBlank_head?_dropWhile {text : List Char} {c : Char}
    (h : c ∈ (text.dropWhile isBlank).head?) : isBlank c = false := by
  have hhead := List.head?_dropWhile_not isBlank text
  rw [h] at hhead
  simpa using hhead

/-- A text that was trimmed does not end with white space. -/
theorem isBlank_getLast?_trimChars {text : List Char} {c : Char}
    (h : c ∈ (trimChars text).getLast?) : isBlank c = false := by
  unfold trimChars trimRight at h
  rw [List.getLast?_reverse] at h
  exact isBlank_head?_dropWhile h

/-- A text that was trimmed does not start with white space. -/
theorem isBlank_head?_trimChars {text : List Char} {c : Char}
    (h : c ∈ (trimChars text).head?) : isBlank c = false := by
  -- What is trimmed off the end leaves the first character where it is.
  have hprefix : trimChars text <+: (trimLeft text).reverse.reverse :=
    List.reverse_prefix.2 (List.dropWhile_suffix isBlank)
  rw [List.reverse_reverse] at hprefix
  obtain ⟨rest, hrest⟩ := hprefix
  have hhead : c ∈ (trimLeft text).head? := by
    rw [← hrest, List.head?_append, h]
    rfl
  exact isBlank_head?_dropWhile hhead

end CodeListing.Text
