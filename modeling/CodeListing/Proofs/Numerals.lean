import CodeListing.Text.Numeral

/-!
# Numerals are read back

The digits of a number, to any base up to sixteen, are read as that number again.  So no character
that is no digit stands in a numeral.  In hexadecimal they are the sixteen digits in lower case, and
zero is the only number that starts with a zero.  Digits in upper case have the same values, so an
address that is written with them is read back as well.
-/

set_option autoImplicit false

namespace CodeListing.Text

/-- The character of a digit has the value of the digit. -/
theorem digitValue?_digitChar {base d : Nat} (hbase : base ≤ 16) (h : d < base) :
    digitValue? base (Nat.digitChar d) = some d := by
  have hall : ∀ base : Fin 17, ∀ d : Fin 16, d.val < base.val →
      digitValue? base.val (Nat.digitChar d.val) = some d.val := by decide
  exact hall ⟨base, by omega⟩ ⟨d, by omega⟩ h

/-- Digits are read on from the number that those in front give. -/
theorem readDigitsFrom?_append {base read n : Nat} {digits : List Char} (others : List Char)
    (h : readDigitsFrom? base read digits = some n) :
    readDigitsFrom? base read (digits ++ others) = readDigitsFrom? base n others := by
  induction digits generalizing read with
  | nil =>
    cases h
    rfl
  | cons c rest ih =>
    rw [List.cons_append, readDigitsFrom?]
    rw [readDigitsFrom?] at h
    cases hc : digitValue? base c with
    | none =>
      rw [hc] at h
      cases h
    | some d =>
      rw [hc] at h
      exact ih h

/-- The number that digits stand for is the one that they were written for. -/
theorem readDigitsFrom?_toDigits {base : Nat} (hone : 1 < base) (hbase : base ≤ 16) (n : Nat) :
    readDigitsFrom? base 0 (Nat.toDigits base n) = some n := by
  induction n using Nat.strongRecOn with
  | _ n ih =>
    by_cases hsmall : n < base
    · rw [Nat.toDigits_of_lt_base hsmall, readDigitsFrom?, digitValue?_digitChar hbase hsmall]
      show some (0 * base + n) = some n
      rw [Nat.zero_mul, Nat.zero_add]
    · have hlarge : base ≤ n := Nat.le_of_not_lt hsmall
      have hdigit : n % base < base := Nat.mod_lt n (by omega)
      rw [Nat.toDigits_of_base_le hone hlarge,
        readDigitsFrom?_append _ (ih (n / base) (Nat.div_lt_self (by omega) hone)),
        readDigitsFrom?, digitValue?_digitChar hbase hdigit]
      show some (n / base * base + n % base) = some n
      rw [Nat.div_add_mod']

/-- Every character of a row that can be read is a digit. -/
theorem digitValue?_ne_none_of_mem {base read n : Nat} {digits : List Char}
    (h : readDigitsFrom? base read digits = some n) {c : Char} (hc : c ∈ digits) :
    digitValue? base c ≠ none := by
  induction digits generalizing read with
  | nil => cases hc
  | cons first rest ih =>
    rw [readDigitsFrom?] at h
    cases hfirst : digitValue? base first with
    | none =>
      rw [hfirst] at h
      cases h
    | some d =>
      rw [hfirst] at h
      rcases List.mem_cons.1 hc with rfl | hc
      · rw [hfirst]
        exact Option.some_ne_none d
      · exact ih h hc

/-- A character that is no digit stands in no numeral. -/
theorem not_mem_toDigits {base : Nat} (hone : 1 < base) (hbase : base ≤ 16) (n : Nat) {c : Char}
    (hc : digitValue? base c = none) : c ∉ Nat.toDigits base n := by
  intro hmem
  exact digitValue?_ne_none_of_mem (readDigitsFrom?_toDigits hone hbase n) hmem hc

/-- A plus sign has no value. -/
theorem digitValue?_plus (base : Nat) : digitValue? base '+' = none := by
  simp [digitValue?]

/-- A row of digits whose number stays below the bound is read as this number. -/
theorem readUnsigned?_of_readDigitsFrom? {base bound n : Nat} {digits : List Char}
    (hne : digits ≠ []) (hread : readDigitsFrom? base 0 digits = some n) (hbound : n < bound) :
    readUnsigned? base bound digits = some n := by
  have hplus : dropPlus digits = digits := by
    unfold dropPlus
    split
    · -- A plus sign is no digit, so the row would not have been read.
      exact absurd (digitValue?_plus base) (digitValue?_ne_none_of_mem hread List.mem_cons_self)
    · rfl
  have hfull : digits.isEmpty = false := List.isEmpty_eq_false_iff.2 hne
  unfold readUnsigned? readDigits?
  rw [hplus, hfull, hread]
  simp [hbound]

/-- Digits may be replaced by others of the same value. -/
theorem readDigitsFrom?_map {base : Nat} {spell : Char → Char} {digits : List Char}
    (h : ∀ c ∈ digits, digitValue? base (spell c) = digitValue? base c) (read : Nat) :
    readDigitsFrom? base read (digits.map spell) = readDigitsFrom? base read digits := by
  induction digits generalizing read with
  | nil => rfl
  | cons c rest ih =>
    have hrest : ∀ d ∈ rest, digitValue? base (spell d) = digitValue? base d := by
      intro d hd
      exact h d (List.mem_cons_of_mem c hd)
    simp only [List.map_cons, readDigitsFrom?, h c List.mem_cons_self, ih hrest]

/-! ## Numerals of a fixed width -/

/-- A padded text has the given width, or its own length if that is more. -/
theorem length_padLeft (width : Nat) (fill : Char) (text : List Char) :
    (padLeft width fill text).length = max width text.length := by
  unfold padLeft
  rw [List.length_append, List.length_replicate]
  omega

/-- A text that is long enough is not padded. -/
theorem padLeft_of_le {width : Nat} {text : List Char} (fill : Char) (h : width ≤ text.length) :
    padLeft width fill text = text := by
  unfold padLeft
  rw [Nat.sub_eq_zero_of_le h]
  rfl

/-! ## Hexadecimal digits -/

/-- The hexadecimal digits in lower case, in the order of their values. -/
def lowerHexDigits : List Char :=
  ['0', '1', '2', '3', '4', '5', '6', '7', '8', '9', 'a', 'b', 'c', 'd', 'e', 'f']

/-- The character of a value below sixteen is a hexadecimal digit in lower case. -/
theorem digitChar_mem_lowerHexDigits {d : Nat} (h : d < 16) :
    Nat.digitChar d ∈ lowerHexDigits := by
  have hall : ∀ d : Fin 16, Nat.digitChar d.val ∈ lowerHexDigits := by decide
  exact hall ⟨d, h⟩

/-- Numbers are written with hexadecimal digits in lower case. -/
theorem mem_lowerHexDigits_of_mem_hexDigits {n : Nat} {c : Char} (h : c ∈ hexDigits n) :
    c ∈ lowerHexDigits := by
  unfold hexDigits at h
  induction n using Nat.strongRecOn with
  | _ n ih =>
    by_cases hsmall : n < 16
    · rw [Nat.toDigits_of_lt_base hsmall, List.mem_singleton] at h
      rw [h]
      exact digitChar_mem_lowerHexDigits hsmall
    · rw [Nat.toDigits_of_base_le (by decide) (Nat.le_of_not_lt hsmall), List.mem_append,
        List.mem_singleton] at h
      rcases h with h | h
      · exact ih (n / 16) (Nat.div_lt_self (by omega) (by decide)) h
      · rw [h]
        exact digitChar_mem_lowerHexDigits (Nat.mod_lt n (by decide))

/-- A number that is not zero has no zero in front. -/
theorem head?_hexDigits_ne_zero {n : Nat} (h : n ≠ 0) : (hexDigits n).head? ≠ some '0' := by
  unfold hexDigits
  induction n using Nat.strongRecOn with
  | _ n ih =>
    by_cases hsmall : n < 16
    · have hall : ∀ d : Fin 16, d.val ≠ 0 → Nat.digitChar d.val ≠ '0' := by decide
      rw [Nat.toDigits_of_lt_base hsmall, List.head?_cons]
      exact fun heq => hall ⟨n, hsmall⟩ h (Option.some.inj heq)
    · have hhead := ih (n / 16) (Nat.div_lt_self (by omega) (by decide)) (by omega)
      rw [Nat.toDigits_of_base_le (by decide) (Nat.le_of_not_lt hsmall), List.head?_append]
      cases hfirst : (Nat.toDigits 16 (n / 16)).head? with
      | none => exact absurd (List.head?_eq_none_iff.1 hfirst) Nat.toDigits_ne_nil
      | some first =>
        rw [hfirst] at hhead
        exact hhead

/-- An address in upper-case hexadecimal is read back. -/
theorem readHexAddress?_upperHexDigits (address : UInt64) :
    readHexAddress? (upperHexDigits address.toNat) = some address := by
  have hall : (lowerHexDigits.all fun c =>
      digitValue? 16 c.toUpper == digitValue? 16 c) = true := by decide
  have hvalue : ∀ c ∈ hexDigits address.toNat, digitValue? 16 c.toUpper = digitValue? 16 c := by
    intro c hc
    exact eq_of_beq (List.all_eq_true.1 hall c (mem_lowerHexDigits_of_mem_hexDigits hc))
  have hread : readDigitsFrom? 16 0 (upperHexDigits address.toNat) = some address.toNat := by
    unfold upperHexDigits
    rw [readDigitsFrom?_map hvalue]
    exact readDigitsFrom?_toDigits (by decide) (by decide) address.toNat
  have hne : upperHexDigits address.toNat ≠ [] := by
    simp [upperHexDigits, hexDigits, Nat.toDigits_ne_nil]
  unfold readHexAddress?
  rw [readUnsigned?_of_readDigitsFrom? hne hread address.toNat_lt]
  simp

/-- An address has at most sixteen digits. -/
theorem length_upperHexDigits_le (address : UInt64) :
    (upperHexDigits address.toNat).length ≤ 16 := by
  unfold upperHexDigits hexDigits
  rw [List.length_map, Nat.length_toDigits_le_iff (by decide) (by decide)]
  exact address.toNat_lt

/-! ## Decimal digits -/

/-- Numbers are written with the ten decimal digits. -/
theorem isDigit_of_mem_decimalDigits {n : Nat} {c : Char} (h : c ∈ decimalDigits n) :
    48 ≤ c.toNat ∧ c.toNat ≤ 57 := by
  have hdigit : c.isDigit := Nat.isDigit_of_mem_toDigits (by decide) (by decide) h
  simp only [Char.isDigit, Bool.and_eq_true, decide_eq_true_eq, ge_iff_le,
    UInt32.le_iff_toNat_le] at hdigit
  exact hdigit

/-- A decimal number of 32 bits is read back. -/
theorem readWord?_decimalDigits {n : Nat} (h : n < UInt32.size) :
    readWord? (decimalDigits n) = some (UInt32.ofNat n) := by
  have hread : readDigitsFrom? 10 0 (decimalDigits n) = some n :=
    readDigitsFrom?_toDigits (by decide) (by decide) n
  have hne : decimalDigits n ≠ [] := Nat.toDigits_ne_nil
  unfold readWord?
  rw [readUnsigned?_of_readDigitsFrom? hne hread h]
  rfl

end CodeListing.Text
