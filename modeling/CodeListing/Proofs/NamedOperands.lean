import CodeListing.Listing.Text
import CodeListing.Proofs.Numerals

/-!
# Names in the operands

The name of a direct reference is written where the number of the reference occurs in the operands.
An occurrence is one of a text in a text, while operands are made of numbers: here a text is cut
into numbers, each with all the digits that follow its `0x`, and other characters (`pieces`).

The number of the reference also occurs where it is not one of these numbers: at the front of a
longer number, and across the end of a number whose last digit is a zero in front of an `x`.  Where
no number is mistaken in this way (`AnyMistaken`), the name stands exactly for the numbers that are
equal to the reference.  Where one is, the line differs from that for every name with a character
of its own, one that stands neither in the operands nor in front of a name behind them.
-/

set_option autoImplicit false

namespace CodeListing

namespace Text

/-! ## The numbers of a text -/

/-- A digit of a lower-case hexadecimal number. -/
def isLowerHex (c : Char) : Bool :=
  lowerHexDigits.contains c

/-- A row of lower-case hexadecimal digits. -/
structure IsNumeral (digits : List Char) : Prop where
  ne_nil : digits ≠ []
  lower : ∀ c ∈ digits, isLowerHex c = true

/-- The digits of a number are a numeral. -/
theorem isNumeral_hexDigits (n : Nat) : IsNumeral (hexDigits n) where
  ne_nil := Nat.toDigits_ne_nil
  lower _ hc := List.contains_iff_mem.2 (mem_lowerHexDigits_of_mem_hexDigits hc)

/-- The digits of the number that the text starts with; none if it starts with no number. -/
def numberDigits : List Char → List Char
  | '0' :: 'x' :: rest => rest.takeWhile isLowerHex
  | _ => []

/-- A piece of a text. -/
inductive Piece where
  /-- `0x` and the digits behind it. -/
  | number (digits : List Char)
  /-- A character that belongs to no number. -/
  | other (c : Char)
  deriving DecidableEq

/-- The text cut into numbers, from left to right and as long as possible, and other characters. -/
def pieces : List Char → List Piece
  | [] => []
  | c :: rest =>
    let digits := numberDigits (c :: rest)
    if digits.isEmpty then .other c :: pieces rest
    else .number digits :: pieces (rest.drop (digits.length + 1))
termination_by text => text.length
decreasing_by
  · simp
  · simp only [List.length_drop, List.length_cons]; omega

namespace Piece

/-- The characters of the piece. -/
def text : Piece → List Char
  | number digits => '0' :: 'x' :: digits
  | other c => [c]

/-- The characters of the piece, with the name for the number that has the digits. -/
def renamed (digits name : List Char) (piece : Piece) : List Char :=
  if piece = .number digits then name else piece.text

/-- Within the piece starts an occurrence of a number that it is not: the number with the digits is
a part of it from the front, or takes its last zero and what stands behind it. -/
def MistakenFor (digits : List Char) : Piece → List Char → Prop
  | number others, behind =>
    others ≠ digits ∧
      (digits <+: others ∨ others.getLast? = some '0' ∧ 'x' :: digits <+: behind)
  | other _, _ => False

instance (digits : List Char) :
    (piece : Piece) → (behind : List Char) → Decidable (piece.MistakenFor digits behind)
  | number _, _ => inferInstanceAs (Decidable (_ ∧ _))
  | other _, _ => inferInstanceAs (Decidable False)

/-- The piece is cut as it should be in front of the rest: a number has all its digits, and no
number starts with another character. -/
def StandsBefore : Piece → List Char → Prop
  | number digits, rest =>
    IsNumeral digits ∧ numberDigits ('0' :: 'x' :: (digits ++ rest)) = digits
  | other c, rest => numberDigits (c :: rest) = []

end Piece

/-- One of the pieces is mistaken for the number with the digits. -/
def AnyMistaken (digits : List Char) : List Piece → Prop
  | [] => False
  | piece :: behind =>
    piece.MistakenFor digits (behind.flatMap Piece.text) ∨ AnyMistaken digits behind

instance decidableAnyMistaken (digits : List Char) :
    (pieces : List Piece) → Decidable (AnyMistaken digits pieces)
  | [] => inferInstanceAs (Decidable False)
  | _ :: behind =>
    have := decidableAnyMistaken digits behind
    inferInstanceAs (Decidable (_ ∨ _))

/-! ## The cut -/

/-- The text is cut into the pieces. -/
inductive Cut : List Char → List Piece → Prop
  | nil : Cut [] []
  | cons {piece : Piece} {rest : List Char} {behind : List Piece}
      (hpiece : piece.StandsBefore rest) (hrest : Cut rest behind) :
      Cut (piece.text ++ rest) (piece :: behind)

/-- A text that starts with a number has its digits behind `0x`. -/
theorem exists_rest_of_numberDigits {text : List Char} (h : numberDigits text ≠ []) :
    IsNumeral (numberDigits text) ∧
      ∃ rest, text = '0' :: 'x' :: (numberDigits text ++ rest) := by
  revert h
  fun_cases numberDigits text with
  | case1 rest =>
    intro h
    refine ⟨⟨h, ?_⟩, rest.dropWhile isLowerHex, ?_⟩
    · intro c hc
      exact List.all_eq_true.1 List.all_takeWhile c hc
    · rw [List.takeWhile_append_dropWhile]
  | case2 => exact fun h => absurd rfl h

/-- The pieces of a text are cut from it. -/
theorem cut_pieces (text : List Char) : Cut text (pieces text) := by
  fun_induction pieces text with
  | case1 => exact .nil
  | case2 c rest digits hnone ih =>
    exact @Cut.cons (.other c) rest _ (List.isEmpty_iff.1 hnone) ih
  | case3 c rest digits hsome ih =>
    have hne : digits ≠ [] := fun hnil => hsome (List.isEmpty_iff.2 hnil)
    obtain ⟨hnumeral, others, htext⟩ := exists_rest_of_numberDigits hne
    have hdigits : numberDigits (c :: rest) = digits := rfl
    rw [hdigits] at hnumeral htext
    clear_value digits
    obtain ⟨rfl, rfl⟩ := List.cons.inj htext
    have hothers : ('x' :: (digits ++ others)).drop (digits.length + 1) = others := by simp
    rw [hothers] at ih ⊢
    exact @Cut.cons (.number digits) others _ ⟨hnumeral, hdigits⟩ ih

/-- Nothing is lost in the cut. -/
theorem Cut.flatMap_text {text : List Char} {pieces : List Piece} (h : Cut text pieces) :
    pieces.flatMap Piece.text = text := by
  induction h with
  | nil => rfl
  | cons _ _ ih => rw [List.flatMap_cons, ih]

/-! ## Occurrences -/

/-- No occurrence of the needle starts in the first of two texts that follow each other. -/
def Free (needle : List Char) : List Char → List Char → Prop
  | [], _ => True
  | c :: front, rest => ¬ needle <+: c :: (front ++ rest) ∧ Free needle front rest

section

variable {needle : List Char}

/-- What stands at the front of a text occurs in it. -/
theorem occursIn_of_isPrefix {text : List Char} (h : needle <+: text) :
    occursIn needle text = true := by
  cases text with
  | nil => rw [List.prefix_nil.1 h]; rfl
  | cons c rest => rw [occursIn, List.isPrefixOf_iff_prefix.2 h, Bool.true_or]

/-- Behind a free front the needle occurs where it occurs in the rest. -/
theorem Free.occursIn_append {front rest : List Char} (h : Free needle front rest) :
    occursIn needle (front ++ rest) = occursIn needle rest := by
  induction front with
  | nil => rfl
  | cons c front ih =>
    have hfalse : needle.isPrefixOf (c :: (front ++ rest)) = false := by
      rw [Bool.eq_false_iff]
      exact fun htrue => h.1 (List.isPrefixOf_iff_prefix.1 htrue)
    rw [List.cons_append, occursIn, hfalse, Bool.false_or, ih h.2]

/-- Nothing is replaced in a free front. -/
theorem Free.replaceAll_append {front rest : List Char} (h : Free needle front rest)
    (name : List Char) :
    replaceAll needle name (front ++ rest) = front ++ replaceAll needle name rest := by
  induction front with
  | nil => rfl
  | cons c front ih =>
    rw [List.cons_append, replaceAll, if_neg, ih h.2, List.cons_append]
    intro htrue
    exact h.1 (List.isPrefixOf_iff_prefix.1 (Bool.and_eq_true_iff.1 htrue).1)

/-- A needle at the front is replaced. -/
theorem replaceAll_needle_append (hne : needle ≠ []) (name rest : List Char) :
    replaceAll needle name (needle ++ rest) = name ++ replaceAll needle name rest := by
  cases needle with
  | nil => exact absurd rfl hne
  | cons c needle =>
    have hhit : (c :: needle).isPrefixOf (c :: (needle ++ rest)) = true :=
      List.isPrefixOf_iff_prefix.2 (List.prefix_append _ _)
    rw [List.cons_append, replaceAll, hhit]
    simp

/-- Where the needle occurs, the name stands behind a part of the text that is kept. -/
theorem exists_replaceAll_eq {text : List Char} (hne : needle ≠ [])
    (h : occursIn needle text = true) (name : List Char) :
    ∃ front after, front <+: text ∧ replaceAll needle name text = front ++ (name ++ after) := by
  induction text with
  | nil => exact absurd (List.isEmpty_iff.1 h) hne
  | cons d rest ih =>
    by_cases hstart : needle <+: d :: rest
    · obtain ⟨after, hafter⟩ := hstart
      refine ⟨[], replaceAll needle name after, List.nil_prefix, ?_⟩
      rw [← hafter, replaceAll_needle_append hne, List.nil_append]
    · have hfree : Free needle [d] rest := ⟨hstart, trivial⟩
      rw [← List.singleton_append, hfree.occursIn_append] at h
      obtain ⟨front, after, hfront, hrest⟩ := ih h
      refine ⟨d :: front, after, List.cons_prefix_cons.2 ⟨rfl, hfront⟩, ?_⟩
      rw [← List.singleton_append, hfree.replaceAll_append, hrest]
      rfl

end

/-! ## Occurrences of a number -/

section

variable {digits : List Char} {piece : Piece} {rest : List Char}

/-- A number occurs at the front of a text if its digits are the first of those there. -/
theorem IsNumeral.prefix_iff (hdigits : IsNumeral digits) (text : List Char) :
    '0' :: 'x' :: digits <+: text ↔ digits <+: numberDigits text := by
  fun_cases numberDigits text with
  | case1 rest =>
    rw [List.cons_prefix_cons, List.cons_prefix_cons]
    constructor
    · rintro ⟨-, -, others, rfl⟩
      rw [List.takeWhile_append_of_pos hdigits.lower]
      exact List.prefix_append _ _
    · exact fun h => ⟨rfl, rfl, h.trans (List.takeWhile_prefix _)⟩
  | case2 _ hnot =>
    rw [List.prefix_nil]
    constructor
    · rintro ⟨others, rfl⟩
      exact (hnot _ rfl).elim
    · exact fun h => absurd h hdigits.ne_nil

/-- Among digits a number starts only with the last one, if that is the zero in front of an `x`. -/
theorem free_of_lower {front : List Char} (hlower : ∀ c ∈ front, isLowerHex c = true)
    (hend : ¬ (front.getLast? = some '0' ∧ 'x' :: digits <+: rest)) :
    Free ('0' :: 'x' :: digits) front rest := by
  induction front with
  | nil => trivial
  | cons d front ih =>
    have hlower' : ∀ c ∈ front, isLowerHex c = true :=
      fun c hc => hlower c (List.mem_cons_of_mem d hc)
    cases front with
    | nil =>
      refine ⟨?_, trivial⟩
      intro h
      obtain ⟨rfl, hbehind⟩ := List.cons_prefix_cons.1 h
      exact hend ⟨rfl, hbehind⟩
    | cons e front =>
      rw [List.getLast?_cons_cons] at hend
      refine ⟨?_, ih hlower' hend⟩
      intro h
      obtain ⟨-, hbehind⟩ := List.cons_prefix_cons.1 h
      obtain ⟨rfl, -⟩ := List.cons_prefix_cons.1 hbehind
      have hx := hlower' _ List.mem_cons_self
      exact absurd hx (by decide)

/-- A free front stays free with the letter of hexadecimal numbers before it. -/
theorem free_cons_x {front : List Char} (h : Free ('0' :: 'x' :: digits) front rest) :
    Free ('0' :: 'x' :: digits) ('x' :: front) rest := by
  refine ⟨?_, h⟩
  intro hstart
  exact absurd (List.cons_prefix_cons.1 hstart).1 (by decide)

/-- In a piece that is not the number with the digits, and is not mistaken for it, the number does
not occur. -/
theorem Piece.StandsBefore.free (hdigits : IsNumeral digits) (hpiece : piece.StandsBefore rest)
    (hne : piece ≠ .number digits) (hnot : ¬ piece.MistakenFor digits rest) :
    Free ('0' :: 'x' :: digits) piece.text rest := by
  cases piece with
  | number others =>
    obtain ⟨hothers, hmax⟩ := hpiece
    have hne' : others ≠ digits := fun heq => hne (congrArg Piece.number heq)
    refine ⟨?_, free_cons_x (free_of_lower hothers.lower fun hend => hnot ⟨hne', Or.inr hend⟩)⟩
    rw [List.cons_append, hdigits.prefix_iff, hmax]
    exact fun hstart => hnot ⟨hne', Or.inl hstart⟩
  | other c =>
    refine ⟨?_, trivial⟩
    rw [List.nil_append, hdigits.prefix_iff, hpiece, List.prefix_nil]
    exact hdigits.ne_nil

/-- In a piece that is mistaken for the number with the digits, an occurrence of the number
starts. -/
theorem Piece.MistakenFor.exists_occurrence (hdigits : IsNumeral digits)
    (hpiece : piece.StandsBefore rest) (h : piece.MistakenFor digits rest) :
    ∃ front behind after, piece.text = front ++ behind ∧ behind ≠ [] ∧
      behind ++ rest = '0' :: 'x' :: digits ++ after ∧
      Free ('0' :: 'x' :: digits) front (behind ++ rest) := by
  cases piece with
  | other c => exact h.elim
  | number others =>
    obtain ⟨hothers, hmax⟩ := hpiece
    by_cases hstart : digits <+: others
    · obtain ⟨after, rfl⟩ := hstart
      refine ⟨[], '0' :: 'x' :: (digits ++ after), after ++ rest, rfl, List.cons_ne_nil _ _, ?_,
        trivial⟩
      simp
    · obtain ⟨hlast, after, rfl⟩ := h.2.resolve_left hstart
      obtain ⟨front, rfl⟩ := List.getLast?_eq_some_iff.1 hlast
      refine ⟨'0' :: 'x' :: front, ['0'], after, rfl, List.cons_ne_nil _ _, rfl, ?_, ?_⟩
      · rw [List.cons_append, ← List.append_assoc, hdigits.prefix_iff, hmax]
        exact hstart
      · apply free_cons_x
        apply free_of_lower
        · exact fun c hc => hothers.lower c (List.mem_append_left _ hc)
        · rintro ⟨-, hx⟩
          exact absurd (List.cons_prefix_cons.1 hx).1 (by decide)

end

/-! ## Replacing a number -/

section

variable {digits : List Char} {text : List Char} {pieces : List Piece}

/-- A number occurs in a text exactly if it is one of its pieces or one of them is mistaken for
it. -/
theorem Cut.occursIn_iff (hdigits : IsNumeral digits) (h : Cut text pieces) :
    occursIn ('0' :: 'x' :: digits) text = true ↔
      .number digits ∈ pieces ∨ AnyMistaken digits pieces := by
  induction h with
  | nil => simp [occursIn, AnyMistaken]
  | @cons piece rest behind hpiece hrest ih =>
    rw [AnyMistaken, hrest.flatMap_text, List.mem_cons]
    by_cases heq : piece = .number digits
    · subst heq
      have hoccurs : occursIn ('0' :: 'x' :: digits) ((Piece.number digits).text ++ rest) = true :=
        occursIn_of_isPrefix (List.prefix_append _ _)
      simp [hoccurs]
    · by_cases hmistaken : piece.MistakenFor digits rest
      · obtain ⟨front, back, after, htext, -, hback, -⟩ :=
          hmistaken.exists_occurrence hdigits hpiece
        have hoccurs : occursIn ('0' :: 'x' :: digits) (piece.text ++ rest) = true := by
          rw [htext, List.append_assoc, hback]
          exact occursIn_append front (occursIn_of_isPrefix (List.prefix_append _ _))
        simp [hoccurs, hmistaken]
      · rw [(hpiece.free hdigits heq hmistaken).occursIn_append, ih]
        simp [Ne.symm heq, hmistaken]

/-- If no piece is mistaken for the number, the name replaces the pieces that are the number. -/
theorem Cut.replaceAll_eq (hdigits : IsNumeral digits) (h : Cut text pieces)
    (hnot : ¬ AnyMistaken digits pieces) (name : List Char) :
    replaceAll ('0' :: 'x' :: digits) name text = pieces.flatMap (Piece.renamed digits name) := by
  induction h with
  | nil => rw [replaceAll, List.flatMap_nil]
  | @cons piece rest behind hpiece hrest ih =>
    rw [AnyMistaken, hrest.flatMap_text, not_or] at hnot
    rw [List.flatMap_cons, ← ih hnot.2, Piece.renamed]
    split
    · rename_i heq
      subst heq
      exact replaceAll_needle_append (List.cons_ne_nil _ _) name rest
    · rename_i hne
      exact (hpiece.free hdigits hne hnot.1).replaceAll_append name

/-- A text that starts with the name differs from one in which something stands in front of any
name: they have the name's own character in different places. -/
theorem name_append_ne {name after back others : List Char} {c : Char} (hname : c ∈ name)
    (hback : c ∉ back) (hne : back ≠ [])
    (hothers : c ∈ others → name.idxOf c ≤ others.idxOf c) : name ++ after ≠ back ++ others := by
  intro heq
  have hmem : c ∈ others := by
    have hmem : c ∈ back ++ others := heq ▸ List.mem_append_left _ hname
    exact (List.mem_append.1 hmem).resolve_left hback
  have hindex := congrArg (List.idxOf c) heq
  rw [List.idxOf_append, if_pos hname, List.idxOf_append, if_neg hback] at hindex
  have hle := hothers hmem
  have hpos := List.length_pos_iff.2 hne
  omega

/-- A character that only the name has stands no earlier than in the name. -/
theorem idxOf_le_idxOf_renamed {name : List Char} {c : Char}
    (htext : c ∉ pieces.flatMap Piece.text)
    (h : c ∈ pieces.flatMap (Piece.renamed digits name)) :
    name.idxOf c ≤ (pieces.flatMap (Piece.renamed digits name)).idxOf c := by
  induction pieces with
  | nil => cases h
  | cons piece behind ih =>
    rw [List.flatMap_cons, List.mem_append, not_or] at htext
    rw [List.flatMap_cons] at h ⊢
    by_cases heq : piece = .number digits
    · have hrenamed : piece.renamed digits name = name := if_pos heq
      rw [hrenamed, List.idxOf_append]
      split
      · exact Nat.le_refl _
      · exact Nat.le_trans List.idxOf_le_length (Nat.le_add_left _ _)
    · have hrenamed : piece.renamed digits name = piece.text := if_neg heq
      rw [hrenamed] at h ⊢
      rw [List.idxOf_append, if_neg htext.1]
      have hrest := ih htext.2 ((List.mem_append.1 h).resolve_left htext.1)
      omega

/-- If a piece is mistaken for the number, the text with the number replaced is not that of the
renamed pieces, as long as the name has a character of its own. -/
theorem Cut.replaceAll_ne (hdigits : IsNumeral digits) (h : Cut text pieces)
    (hmistaken : AnyMistaken digits pieces) {name : List Char} {c : Char} (hname : c ∈ name)
    (htext : c ∉ text) :
    replaceAll ('0' :: 'x' :: digits) name text ≠ pieces.flatMap (Piece.renamed digits name) := by
  induction h with
  | nil => exact hmistaken.elim
  | @cons piece rest behind hpiece hrest ih =>
    rw [AnyMistaken, hrest.flatMap_text] at hmistaken
    rw [List.mem_append, not_or] at htext
    rw [List.flatMap_cons]
    by_cases hhere : piece.MistakenFor digits rest
    · have hne : piece ≠ .number digits := by
        rintro rfl
        exact hhere.1 rfl
      have hrenamed : piece.renamed digits name = piece.text := if_neg hne
      obtain ⟨front, back, after, hsplit, hback, hoccurs, hfree⟩ :=
        hhere.exists_occurrence hdigits hpiece
      have hback' : c ∉ back := by
        intro hmem
        apply htext.1
        rw [hsplit]
        exact List.mem_append_right _ hmem
      -- Behind `front` one text goes on with the name and the other with a part of the piece.
      rw [hrenamed, hsplit, List.append_assoc, hfree.replaceAll_append, List.append_assoc,
        hoccurs, replaceAll_needle_append (List.cons_ne_nil _ _)]
      intro heq
      refine name_append_ne hname hback' hback ?_ (List.append_cancel_left heq)
      exact idxOf_le_idxOf_renamed (hrest.flatMap_text ▸ htext.2)
    · have hbehind := ih (hmistaken.resolve_left hhere) htext.2
      unfold Piece.renamed
      split
      · rename_i heq
        subst heq
        rw [Piece.text, replaceAll_needle_append (List.cons_ne_nil _ _)]
        exact fun heq => hbehind (List.append_cancel_left heq)
      · rename_i hne
        rw [(hpiece.free hdigits hne hhere).replaceAll_append]
        exact fun heq => hbehind (List.append_cancel_left heq)

end

end Text

namespace LineFormat

/-! ## Lines with names -/

/-- The line of a valid instruction with the operands and what follows them. -/
def lineOf (format : LineFormat) (instruction : Instruction) (labelBase : UInt64)
    (operands trailer : String) : String :=
  let column := if format.printAddresses then format.addressColumn instruction.address else ""
  column ++ localLabel (instruction.address - labelBase) ++ ": " ++ instruction.mnemonic ++
    (if operands.isEmpty then "" else " " ++ operands) ++ trailer

/-- The line of a valid instruction with the name for each number in the operands that is the
address; if there is none, the name follows behind a semicolon. -/
def namedLine (format : LineFormat) (instruction : Instruction) (labelBase address : UInt64)
    (name : String) : String :=
  let digits := Text.hexDigits address.toNat
  let pieces := Text.pieces instruction.operands.toList
  if .number digits ∈ pieces then
    format.lineOf instruction labelBase
      (String.ofList (pieces.flatMap (Text.Piece.renamed digits name.toList))) ""
  else format.lineOf instruction labelBase instruction.operands ("; " ++ name)

/-- The line of a valid instruction is made of its operands and its trailer. -/
theorem line_eq_lineOf (format : LineFormat) {instruction : Instruction} (labelBase : UInt64)
    (names : NameMap) (hvalid : instruction.isInvalid = false) :
    format.line instruction labelBase names =
      format.lineOf instruction labelBase (operandsAndTrailer instruction names).1
        (((operandsAndTrailer instruction names).2.map fun name => "; " ++ name).getD "") := by
  unfold line lineOf
  rw [hvalid]
  rfl

/-- The line of a direct reference with a name, by the occurrences of its number. -/
theorem line_of_named (format : LineFormat) {instruction : Instruction} (labelBase : UInt64)
    {names : NameMap} {address : UInt64} {name : String} {digits : List Char}
    (hdigits : Text.hexDigits address.toNat = digits)
    (hvalid : instruction.isInvalid = false) (hdirect : instruction.isIndirect = false)
    (hnamed : namedReference? instruction names = some (address, name)) :
    format.line instruction labelBase names =
      if Text.occursIn ('0' :: 'x' :: digits) instruction.operands.toList then
        format.lineOf instruction labelBase (String.ofList
          (Text.replaceAll ('0' :: 'x' :: digits) name.toList instruction.operands.toList)) ""
      else format.lineOf instruction labelBase instruction.operands ("; " ++ name) := by
  have hnumber : (Text.hexLiteral address.toNat).toList = '0' :: 'x' :: digits := by
    rw [Text.hexLiteral, String.toList_ofList, hdigits]
  have hoperands : namedOperands? instruction address name =
      if Text.occursIn ('0' :: 'x' :: digits) instruction.operands.toList then
        some (String.ofList
          (Text.replaceAll ('0' :: 'x' :: digits) name.toList instruction.operands.toList))
      else none := by
    simp [namedOperands?, Text.containsText, Text.replaceText, hdirect, hnumber]
  rw [line_eq_lineOf format labelBase names hvalid, operandsAndTrailer, hnamed]
  simp only [hoperands]
  cases Text.occursIn ('0' :: 'x' :: digits) instruction.operands.toList with
  | true => rfl
  | false => rfl

/-- Two lines of an instruction are equal if their operands and trailers together are. -/
theorem lineOf_inj {format : LineFormat} {instruction : Instruction} {labelBase : UInt64}
    {operands trailer others otherTrailer : String} (hoperands : operands ≠ "")
    (hothers : others ≠ "") :
    format.lineOf instruction labelBase operands trailer =
        format.lineOf instruction labelBase others otherTrailer ↔
      operands ++ trailer = others ++ otherTrailer := by
  unfold lineOf
  simp [hoperands, hothers, String.append_assoc]

/-- If a number in the operands is mistaken for the one with the digits, a name with a character of
its own makes two lines of the replaced text and the renamed pieces. -/
theorem lineOf_replaceAll_ne (format : LineFormat) (instruction : Instruction) (labelBase : UInt64)
    {operands name : String} {digits : List Char} {pieces : List Text.Piece}
    (hdigits : Text.IsNumeral digits) (hcut : Text.Cut operands.toList pieces)
    (hmistaken : Text.AnyMistaken digits pieces) {c : Char} (hname : c ∈ name.toList)
    (hown : c ∉ (operands ++ "; ").toList) :
    format.lineOf instruction labelBase
        (String.ofList (Text.replaceAll ('0' :: 'x' :: digits) name.toList operands.toList)) "" ≠
      if .number digits ∈ pieces then
        format.lineOf instruction labelBase
          (String.ofList (pieces.flatMap (Text.Piece.renamed digits name.toList))) ""
      else format.lineOf instruction labelBase operands ("; " ++ name) := by
  rw [String.toList_append, List.mem_append, not_or] at hown
  have hoccurs := (hcut.occursIn_iff hdigits).2 (Or.inr hmistaken)
  obtain ⟨front, after, ⟨back, hback⟩, hreplaced⟩ :=
    Text.exists_replaceAll_eq (List.cons_ne_nil _ _) hoccurs name.toList
  have hne : ∀ text : List Char, c ∈ text → String.ofList text ≠ "" := by
    rintro text hmem heq
    rw [String.ofList_eq_empty_iff.1 heq] at hmem
    cases hmem
  have hreplacedNe := hne _ (hreplaced ▸ List.mem_append_right _ (List.mem_append_left _ hname))
  split
  · rename_i hmem
    have hrenamed : c ∈ pieces.flatMap (Text.Piece.renamed digits name.toList) := by
      refine List.mem_flatMap.2 ⟨_, hmem, ?_⟩
      rw [Text.Piece.renamed, if_pos rfl]
      exact hname
    rw [Ne, lineOf_inj hreplacedNe (hne _ hrenamed), String.append_empty, String.append_empty,
      String.ofList_inj]
    exact hcut.replaceAll_ne hdigits hmistaken hname hown.1
  · have hoperands : operands ≠ "" := by
      rintro rfl
      cases hoccurs
    rw [Ne, lineOf_inj hreplacedNe hoperands, ← String.toList_inj]
    rw [String.append_empty, String.toList_ofList, hreplaced, String.toList_append,
      String.toList_append, ← hback, List.append_assoc, ← List.append_assoc back]
    intro heq
    refine Text.name_append_ne hname ?_ ?_ (fun _ => Nat.le_refl _) (List.append_cancel_left heq)
    · rw [List.mem_append, not_or]
      exact ⟨fun hmem => hown.1 (hback ▸ List.mem_append_right _ hmem), hown.2⟩
    · simp

/-- A valid instruction with a direct reference that has a name.  If no number in the operands is
mistaken for the address, the name stands for exactly those that are the address, and follows the
operands if there are none.  If one is mistaken, the line is another one, unless the name has no
character but those of the operands, semicolons and blanks. -/
theorem line_names_reference (format : LineFormat) {instruction : Instruction}
    (labelBase : UInt64) {names : NameMap} {address : UInt64} {name : String}
    (hvalid : instruction.isInvalid = false) (hdirect : instruction.isIndirect = false)
    (hnamed : namedReference? instruction names = some (address, name)) :
    (¬ Text.AnyMistaken (Text.hexDigits address.toNat)
        (Text.pieces instruction.operands.toList) →
      format.line instruction labelBase names =
        format.namedLine instruction labelBase address name) ∧
    (Text.AnyMistaken (Text.hexDigits address.toNat) (Text.pieces instruction.operands.toList) →
      format.line instruction labelBase names =
        format.namedLine instruction labelBase address name →
      ∀ c ∈ name.toList, c ∈ (instruction.operands ++ "; ").toList) := by
  have hnumeral := Text.isNumeral_hexDigits address.toNat
  have hline := line_of_named format labelBase rfl hvalid hdirect hnamed
  have hcut := Text.cut_pieces instruction.operands.toList
  unfold namedLine
  generalize Text.hexDigits address.toNat = digits at hnumeral hline ⊢
  generalize Text.pieces instruction.operands.toList = pieces at hcut ⊢
  have hoccurs := hcut.occursIn_iff hnumeral
  rw [hline]
  constructor
  · intro hnot
    simp only [hoccurs, hnot, or_false, hcut.replaceAll_eq hnumeral hnot]
  · intro hmistaken heq c hname
    rw [if_pos (hoccurs.2 (Or.inr hmistaken))] at heq
    apply Decidable.byContradiction
    intro hown
    exact lineOf_replaceAll_ne format instruction labelBase hnumeral hcut hmistaken hname hown heq

/-- An instruction that stores to the cell at `0x401000`. -/
def storeToCell (operands : String) : Instruction where
  address := 0x10000
  length := 10
  validity := .valid
  bytes := [0xC7, 0x05, 0x00, 0x10, 0x40, 0x00]
  mnemonic := "mov"
  operands := operands
  reference := some 0x401000
  isIndirect := false
  symbol := some "App.Cell"

/-- A number that is a part of the address is left alone. -/
theorem line_names_reference_beside_shorter :
    ¬ Text.AnyMistaken (Text.hexDigits 0x401000)
        (Text.pieces "dword ptr [0x401000], 0x401".toList) ∧
    ({} : LineFormat).line (storeToCell "dword ptr [0x401000], 0x401") 0x10000 .empty =
      ({} : LineFormat).namedLine (storeToCell "dword ptr [0x401000], 0x401") 0x10000 0x401000
        "App.Cell" := by
  have hnot : ¬ Text.AnyMistaken (Text.hexDigits 0x401000)
      (Text.pieces "dword ptr [0x401000], 0x401".toList) := by
    decide +kernel
  exact ⟨hnot, (line_names_reference {} 0x10000 rfl rfl rfl).1 hnot⟩

/-- The front of a number that is longer than the address is renamed too. -/
theorem line_renames_longer_number :
    namedReference? (storeToCell "dword ptr [0x401000], 0x4010000") .empty =
      some (0x401000, "App.Cell") ∧
    ({} : LineFormat).line (storeToCell "dword ptr [0x401000], 0x4010000") 0x10000 .empty =
      "L0000: mov dword ptr [App.Cell], App.Cell0" ∧
    ({} : LineFormat).namedLine (storeToCell "dword ptr [0x401000], 0x4010000") 0x10000 0x401000
        "App.Cell" =
      "L0000: mov dword ptr [App.Cell], 0x4010000" := by
  refine ⟨rfl, ?_⟩
  decide +kernel

end LineFormat

end CodeListing
