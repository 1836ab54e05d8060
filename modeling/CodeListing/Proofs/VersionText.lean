import CodeListing.Proofs.Numerals
import CodeListing.Target.RuntimeVersion
import Mathlib.Data.List.TakeWhile

/-!
# Versions are read back

The text of a version is made of decimal numbers with points between them (`dotted`).  Nothing of it
counts as white space, as a leading letter or as a suffix, and cut at the points it gives the
numbers.

Around it may stand what does not count (`Decoration`).  Behind its first sign the suffix may hold
anything, points, digits and white space included.  That sign is no white space, so trimming stops
behind it at the latest, and reading the numbers stops in front of it.
-/

set_option autoImplicit false

namespace CodeListing.RuntimeVersion

open Text

/-! ## Numbers with points between them -/

/-- The characters of numbers with points between them. -/
def dotted (parts : List UInt32) : List Char :=
  List.intercalate ['.'] (parts.map fun n => decimalDigits n.toNat)

/-- A dot stands between the first part and the others. -/
theorem dotted_cons_cons (n m : UInt32) (rest : List UInt32) :
    dotted (n :: m :: rest) = decimalDigits n.toNat ++ '.' :: dotted (m :: rest) := by
  simp [dotted, List.intercalate_cons_cons]

/-- Parts are written with dots and digits. -/
theorem mem_dotted {parts : List UInt32} {c : Char} (h : c ∈ dotted parts) :
    c.toNat = 46 ∨ 48 ≤ c.toNat ∧ c.toNat ≤ 57 := by
  induction parts with
  | nil => cases h
  | cons n rest ih =>
    cases rest with
    | nil => exact .inr (isDigit_of_mem_decimalDigits (by simpa [dotted] using h))
    | cons m rest =>
      rw [dotted_cons_cons, List.mem_append, List.mem_cons] at h
      obtain h | rfl | h := h
      · exact .inr (isDigit_of_mem_decimalDigits h)
      · exact .inl rfl
      · exact ih h

/-- A character that is neither a dot nor a digit does not occur in parts. -/
theorem ne_of_mem_dotted {parts : List UInt32} {c d : Char} (h : c ∈ dotted parts)
    (hd : d.toNat < 46 ∨ 57 < d.toNat) : c ≠ d := by
  rintro rfl
  have hc := mem_dotted h
  omega

/-- There are no blanks in parts. -/
theorem isBlank_of_mem_dotted {parts : List UInt32} {c : Char} (h : c ∈ dotted parts) :
    isBlank c = false := by
  have hcode := mem_dotted h
  simp only [isBlank, Bool.or_eq_false_iff, Bool.and_eq_false_iff, decide_eq_false_iff_not,
    beq_eq_false_iff_ne]
  omega

/-- The points cut the numbers apart again. -/
theorem splitAt_dotted {parts : List UInt32} (hne : parts ≠ []) :
    splitAt (· == '.') (dotted parts) = parts.map fun n => decimalDigits n.toNat := by
  have hdigits : ∀ n : Nat, ∀ c ∈ decimalDigits n, (c == '.') = false := by
    intro n c hc
    rw [beq_eq_false_iff_ne]
    rintro rfl
    exact absurd (isDigit_of_mem_decimalDigits hc) (by decide)
  induction parts with
  | nil => exact absurd rfl hne
  | cons n rest ih =>
    cases rest with
    | nil =>
      rw [dotted, List.map_singleton, List.intercalate_singleton]
      exact splitAt_of_forall (hdigits _)
    | cons m rest =>
      rw [dotted_cons_cons, splitAt_append (hdigits _) rfl, ih (List.cons_ne_nil m rest)]
      rfl

/-- A part that is there is read as its number, and one that is missing as zero. -/
theorem part?_getElem? (whole : String) (name : VersionPart) (parts : List UInt32) (i : Nat) :
    part? whole name (parts.map fun n => decimalDigits n.toNat)[i]? = .ok (parts[i]?.getD 0) := by
  rw [List.getElem?_map]
  cases parts[i]? with
  | none => rfl
  | some n => simp [part?, readWord?_decimalDigits n.toNat_lt]

/-- The numbers that count are the components; those that are missing are zero. -/
theorem ofText_of_core {text : String} {parts : List UInt32} (hne : parts ≠ [])
    (h : core text.toList = dotted parts) :
    ofText text = .ok ⟨parts[0]?.getD 0, parts[1]?.getD 0, parts[2]?.getD 0⟩ := by
  simp only [ofText, h, splitAt_dotted hne, part?_getElem?]
  rfl

/-! ## What does not count -/

/-- What may stand around the components of a version: white space, some letters `v` in front, and
behind them a suffix that is empty or begins with a minus or a plus sign. -/
structure Decoration where
  before : String
  letters : Nat
  suffix : String
  after : String
  blank_before : AllBlank before
  blank_after : AllBlank after
  signed_suffix : ∀ c ∈ suffix.toList.head?, c = '-' ∨ c = '+'

namespace Decoration

/-- The text with the decoration around it. -/
def around (decoration : Decoration) (text : String) : String :=
  decoration.before ++ String.ofList (List.replicate decoration.letters 'v') ++ text ++
    decoration.suffix ++ decoration.after

/-- Nothing at all. -/
def plain : Decoration where
  before := ""
  letters := 0
  suffix := ""
  after := ""
  blank_before := by decide
  blank_after := by decide
  signed_suffix := by simp

/-- Without decoration a text is as it is. -/
theorem around_plain (text : String) : plain.around text = text := by
  simp [around, plain]

/-- Trimming leaves the letters and the numbers, and of the suffix at least its sign. -/
theorem trimChars_around (decoration : Decoration) {text : String} {parts : List UInt32}
    (htext : text.toList = dotted parts) :
    ∃ rest, trimChars (decoration.around text).toList =
        List.replicate decoration.letters 'v' ++ (dotted parts ++ rest) ∧
      ∀ c ∈ rest.head?, c = '-' ∨ c = '+' := by
  have hchars : (decoration.around text).toList = decoration.before.toList ++
      (List.replicate decoration.letters 'v' ++ (dotted parts ++ decoration.suffix.toList)) ++
      decoration.after.toList := by
    simp [around, htext]
  have hfront : ∀ c ∈ List.replicate decoration.letters 'v' ++ dotted parts, isBlank c = false := by
    intro c hc
    rcases List.mem_append.1 hc with hc | hc
    · rw [List.eq_of_mem_replicate hc]
      rfl
    · exact isBlank_of_mem_dotted hc
  rw [hchars, trimChars_append_of_blank decoration.blank_before decoration.blank_after,
    ← List.append_assoc]
  have hsigned := decoration.signed_suffix
  cases hsuffix : decoration.suffix.toList with
  | nil =>
    refine ⟨[], ?_, by simp⟩
    rw [List.append_nil, List.append_nil, trimChars_of_forall hfront]
  | cons sign rest =>
    rw [hsuffix] at hsigned
    have hsign : sign = '-' ∨ sign = '+' := hsigned sign rfl
    have hblank : isBlank sign = false := by
      rcases hsign with rfl | rfl <;> rfl
    refine ⟨sign :: trimRight rest, ?_, by simpa using hsign⟩
    rw [trimChars_append_cons hfront hblank, List.append_assoc]

/-- Only the numbers count. -/
theorem core_around (decoration : Decoration) {text : String} {parts : List UInt32}
    (htext : text.toList = dotted parts) :
    core (decoration.around text).toList = dotted parts := by
  obtain ⟨rest, htrim, hsigned⟩ := decoration.trimChars_around htext
  have hletters : ∀ c ∈ List.replicate decoration.letters 'v', (c == 'v') = true := by
    intro c hc
    simp [List.eq_of_mem_replicate hc]
  have hfirst : ∀ c ∈ (dotted parts ++ rest).head?, (c == 'v') = false := by
    intro c hc
    rw [beq_eq_false_iff_ne]
    cases hparts : dotted parts with
    | nil =>
      rw [hparts] at hc
      rcases hsigned c hc with rfl | rfl <;> decide
    | cons d others =>
      have hd : d ∈ dotted parts := by simp [hparts]
      rw [hparts] at hc
      cases hc
      exact ne_of_mem_dotted hd (by decide)
  have hnumbers : ∀ c ∈ dotted parts, (!(c == '-' || c == '+')) = true := by
    intro c hc
    simp [ne_of_mem_dotted hc]
  have hrest : rest.takeWhile (fun c => !(c == '-' || c == '+')) = [] := by
    cases rest with
    | nil => rfl
    | cons sign others => rcases hsigned sign rfl with rfl | rfl <;> rfl
  rw [core, htrim, List.dropWhile_append_of_pos hletters, dropWhile_eq_self hfirst,
    List.takeWhile_append_of_pos hnumbers, hrest, List.append_nil]

/-- Numbers with points between them are the components of the version, whatever decoration stands
around them; those that are missing are zero. -/
theorem ofText_around (decoration : Decoration) {text : String} {parts : List UInt32}
    (hne : parts ≠ []) (htext : text.toList = dotted parts) :
    ofText (decoration.around text) =
      .ok ⟨parts[0]?.getD 0, parts[1]?.getD 0, parts[2]?.getD 0⟩ :=
  ofText_of_core hne (decoration.core_around htext)

end Decoration

/-- A version is written as its three parts. -/
theorem toList_text (version : RuntimeVersion) :
    version.text.toList = dotted [version.major, version.minor, version.patch] := by
  simp [text, decimal, dotted, List.intercalate_cons_cons]

/-- The text of a version stands for this version. -/
theorem ofText_text (version : RuntimeVersion) : ofText version.text = .ok version := by
  have h := Decoration.plain.ofText_around (by simp) version.toList_text
  rwa [Decoration.around_plain] at h

/-- Whatever decoration stands around it, the text of a version stands for this version, its first
two components for the version with a patch of zero, and its first component for the version with
both others zero. -/
theorem ofText_decorated (decoration : Decoration) (version : RuntimeVersion) :
    ofText (decoration.around version.text) = .ok version ∧
    ofText (decoration.around
        (decimal version.major.toNat ++ "." ++ decimal version.minor.toNat)) =
      .ok { version with patch := 0 } ∧
    ofText (decoration.around (decimal version.major.toNat)) =
      .ok { version with minor := 0, patch := 0 } := by
  have htwo : (decimal version.major.toNat ++ "." ++ decimal version.minor.toNat).toList =
      dotted [version.major, version.minor] := by
    simp [decimal, dotted, List.intercalate_cons_cons]
  have hone : (decimal version.major.toNat).toList = dotted [version.major] := by
    simp [decimal, dotted]
  refine ⟨?_, ?_, ?_⟩
  · exact decoration.ofText_around (by simp) version.toList_text
  · exact decoration.ofText_around (by simp) htwo
  · exact decoration.ofText_around (by simp) hone

/-- What stands around a prerelease on a line of its own: the suffix has points, digits, letters,
both signs and white space. -/
def Decoration.prerelease : Decoration where
  before := "\t "
  letters := 2
  suffix := "-rc.1+7 v9.9 "
  after := "\r\n"
  blank_before := by decide
  blank_after := by decide
  signed_suffix := by simp

/-- What stands behind a sign is ignored, whatever it is and however many parts stand before it. -/
theorem ofText_prerelease :
    ofText "\t vv8.0.4294967295-rc.1+7 v9.9 \r\n" = .ok ⟨8, 0, 4294967295⟩ ∧
    ofText "\t vv8.0-rc.1+7 v9.9 \r\n" = .ok ⟨8, 0, 0⟩ ∧
    ofText "\t vv8-rc.1+7 v9.9 \r\n" = .ok ⟨8, 0, 0⟩ :=
  ofText_decorated Decoration.prerelease ⟨8, 0, 4294967295⟩

end CodeListing.RuntimeVersion
