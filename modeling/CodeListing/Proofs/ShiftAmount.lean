import CodeListing.Isa.Arm64.Facts
import CodeListing.Proofs.Numerals

/-!
# The shift that an instruction says

How far a number is shifted is read off the text of the operands, where the first `lsl #` is looked
for.  No register and no number is written with the letter `l`.  So behind such operands the first
`lsl #` is the shift of the instruction itself, and its digits are read back.
-/

set_option autoImplicit false

namespace CodeListing

namespace Text

/-- A front without the first character of the needle is passed over. -/
theorem afterFirst?_append_of_not_mem {first : Char} {needle before : List Char}
    (h : first ∉ before) (text : List Char) :
    afterFirst? (first :: needle) (before ++ text) = afterFirst? (first :: needle) text := by
  induction before with
  | nil => rfl
  | cons c rest ih =>
    have hne : first ≠ c := fun heq => h (heq ▸ List.mem_cons_self)
    have hrest : first ∉ rest := fun hmem => h (List.mem_cons_of_mem _ hmem)
    rw [List.cons_append, afterFirst?, ih hrest]
    simp [hne]

/-- Behind a needle at the front comes the text. -/
theorem afterFirst?_cons_self_append (first : Char) (needle text : List Char) :
    afterFirst? (first :: needle) (first :: (needle ++ text)) = some text := by
  rw [afterFirst?]
  simp

end Text

namespace Isa

/-- There is no letter of a shift in a number. -/
theorem not_mem_literal (n : Nat) : 'l' ∉ (literal n).toList := by
  unfold literal
  split
  · unfold Text.decimal
    rw [String.toList_ofList]
    exact Text.not_mem_toDigits (by decide) (by decide) n rfl
  · unfold Text.hexLiteral
    rw [String.toList_ofList]
    have hdigits : 'l' ∉ Text.hexDigits n := Text.not_mem_toDigits (by decide) (by decide) n rfl
    simp [hdigits]

namespace Arm64

/-- There is no letter of a shift in the name of a register. -/
theorem Register.not_mem_name (r : Register) : 'l' ∉ r.name.toList := by
  have hnumber : ∀ n : Nat, 'l' ∉ (Text.decimal n).toList := by
    intro n
    unfold Text.decimal
    rw [String.toList_ofList]
    exact Text.not_mem_toDigits (by decide) (by decide) n rfl
  cases r with
  | x n => simp [Register.name, hnumber n]
  | w n => simp [Register.name, hnumber n]
  | sp => decide
  | wsp => decide
  | xzr => decide
  | wzr => decide

/-- The operand is a register or a number. -/
def Operand.isPlain : Operand → Bool
  | .register _ | .immediate _ _ => true
  | _ => false

/-- There is no letter of a shift in a plain operand. -/
theorem Operand.not_mem_text {operand : Operand} (h : operand.isPlain = true) :
    'l' ∉ operand.text.toList := by
  cases operand with
  | register r => exact r.not_mem_name
  | immediate value signed =>
    have hvalue := not_mem_literal value.toNat
    have hmagnitude := not_mem_literal (signedOfBits 64 value.toNat).natAbs
    unfold Operand.text signedWordLiteral signedLiteral
    cases signed with
    | false => simp [hvalue]
    | true =>
      by_cases hneg : signedOfBits 64 value.toNat < 0
      · simp [hneg, hmagnitude]
      · simp [hneg, hmagnitude]
  | memory => cases h
  | condition => cases h

/-- There is no letter of a shift in texts put together if there is none in each. -/
theorem not_mem_intercalate {texts : List String} (h : ∀ text ∈ texts, 'l' ∉ text.toList) :
    'l' ∉ (String.intercalate ", " texts).toList := by
  induction texts with
  | nil => simp
  | cons text rest ih =>
    have htext := h text List.mem_cons_self
    have hrest := ih fun other hother => h other (List.mem_cons_of_mem _ hother)
    cases rest with
    | nil => simpa using htext
    | cons next rest =>
      rw [String.intercalate_cons_cons]
      simp only [String.toList_append, List.mem_append, not_or]
      exact ⟨⟨htext, by decide⟩, hrest⟩

/-- A text without the letter of a shift has no shift. -/
theorem shiftAmount_of_not_mem {text : String} (h : 'l' ∉ text.toList) : shiftAmount text = 0 := by
  have hnone : Text.afterFirst? "lsl #".toList (text.toList ++ []) = none :=
    Text.afterFirst?_append_of_not_mem h []
  rw [List.append_nil] at hnone
  unfold shiftAmount
  rw [hnone]

/-- The shift that is written behind a text without its letter is read back. -/
theorem shiftAmount_append_shiftText {text : String} (h : 'l' ∉ text.toList) {amount : Nat}
    (hamount : amount < UInt32.size) :
    shiftAmount (text ++ ", " ++ shiftText amount) = UInt32.ofNat amount := by
  have hbefore : 'l' ∉ text.toList ++ [',', ' '] := by simp [h]
  have hfound : Text.afterFirst? "lsl #".toList (text ++ ", " ++ shiftText amount).toList =
      some (Text.decimalDigits amount) := by
    have hlist : (text ++ ", " ++ shiftText amount).toList = (text.toList ++ [',', ' ']) ++
        'l' :: (['s', 'l', ' ', '#'] ++ Text.decimalDigits amount) := by
      simp [shiftText, Text.decimal]
    rw [hlist, show "lsl #".toList = ['l', 's', 'l', ' ', '#'] from rfl,
      Text.afterFirst?_append_of_not_mem hbefore, Text.afterFirst?_cons_self_append]
  have hblank : ∀ c ∈ Text.decimalDigits amount, Text.isBlank c = false := by
    intro c hc
    have hdigit := Text.isDigit_of_mem_decimalDigits hc
    simp only [Text.isBlank, Bool.or_eq_false_iff, Bool.and_eq_false_iff, decide_eq_false_iff_not,
      beq_eq_false_iff_ne]
    omega
  have hkept : (Text.decimalDigits amount).takeWhile
      (fun c => !(c == ',' || Text.isBlank c)) = Text.decimalDigits amount := by
    have hall : ∀ c ∈ Text.decimalDigits amount, !(c == ',' || Text.isBlank c) := by
      intro c hc
      have hcomma : c ≠ ',' := by
        rintro rfl
        exact absurd (Text.isDigit_of_mem_decimalDigits hc) (by decide)
      simp [hblank c hc, hcomma]
    rw [← List.append_nil (Text.decimalDigits amount), List.takeWhile_append_of_pos hall,
      List.takeWhile_nil]
  unfold shiftAmount
  rw [hfound]
  simp only [Text.trimChars_of_forall hblank, hkept]
  -- A decimal number has no `x` behind its first digit.
  split
  · rename_i heq
    have hmem : 'x' ∈ Text.decimalDigits amount := by simp [heq]
    exact absurd (Text.isDigit_of_mem_decimalDigits hmem) (by decide)
  · rw [Text.readWord?_decimalDigits hamount]
    rfl

/-- Behind registers and numbers, the shift that is read off the text is the one of the
instruction. -/
theorem shiftAmount_operandText {insn : Insn} (hne : insn.operands ≠ [])
    (hplain : insn.operands.all (·.isPlain) = true) (hshift : insn.shift.getD 0 < UInt32.size) :
    shiftAmount insn.operandText = UInt32.ofNat (insn.shift.getD 0) := by
  have htexts : ∀ text ∈ insn.operands.map (·.text), 'l' ∉ text.toList := by
    intro text htext
    obtain ⟨operand, hoperand, rfl⟩ := List.mem_map.1 htext
    exact Operand.not_mem_text (List.all_eq_true.1 hplain operand hoperand)
  unfold Insn.operandText
  cases hamount : insn.shift with
  | none =>
    rw [Option.map_none, Option.toList_none, List.append_nil]
    exact shiftAmount_of_not_mem (not_mem_intercalate htexts)
  | some amount =>
    rw [hamount] at hshift
    have htexts_ne : insn.operands.map (·.text) ≠ [] := by simpa using hne
    rw [Option.map_some, Option.toList_some,
      String.intercalate_append_of_ne_nil htexts_ne (List.cons_ne_nil _ _),
      String.intercalate_singleton]
    exact shiftAmount_append_shiftText (not_mem_intercalate htexts) hshift

/-- A number behind registers and numbers is shifted as far as the instruction says. -/
theorem Insn.shifted_eq {insn : Insn} (hne : insn.operands ≠ [])
    (hplain : insn.operands.all (·.isPlain) = true) (hshift : insn.shift.getD 0 < 64)
    (value : UInt64) :
    insn.shifted value = UInt64.ofNat (value.toNat <<< insn.shift.getD 0) := by
  have hsize : insn.shift.getD 0 < UInt32.size := Nat.lt_trans hshift (by decide)
  have hamount : (UInt32.ofNat (insn.shift.getD 0)).toUInt64.toNat = insn.shift.getD 0 := by
    rw [UInt32.toNat_toUInt64, UInt32.toNat_ofNat_of_lt' hsize]
  unfold Insn.shifted
  rw [shiftAmount_operandText hne hplain hsize]
  apply UInt64.toNat_inj.1
  rw [UInt64.toNat_shiftLeft, hamount, Nat.mod_eq_of_lt hshift, UInt64.toNat_ofNat']

end Arm64

end Isa

end CodeListing
