import CodeListing.Proofs.HexText
import CodeListing.Proofs.Numerals

/-!
# Which texts stand for bytes

Reading works on the UTF-8 bytes of a text, two at a time.  A character beyond ASCII never gives a
byte: its bytes are none of the gaps (`digits_eq`), and neither a pair that is one such character
nor a pair that cuts one is read.  So reading can be told in characters: what is left without white
space is cut into pairs, and each pair has to be read as a number.

A number may carry a plus sign.  Hence a pair is two hexadecimal digits, or a plus sign and one
digit, and the texts that are read are those of the usual grammar and some with a plus sign.
-/

set_option autoImplicit false

namespace CodeListing.Text.HexBytes

/-! ## The grammar -/

/-- ASCII white space. -/
def isSpace (c : Char) : Bool :=
  [' ', '\t', '\n', '\x0C', '\r'].contains c

/-- The characters of a text that are no white space. -/
def significant (text : String) : List Char :=
  text.toList.filter fun c => !isSpace c

/-- The character is the hexadecimal digit with the value, a letter in either case. -/
def IsDigit (c : Char) (value : Nat) : Prop :=
  lowerHexDigits[value]? = some c ∨ (lowerHexDigits.map Char.toUpper)[value]? = some c

/-- Two digits that denote a byte. -/
def DigitPair (high low : Char) (byte : UInt8) : Prop :=
  ∃ h l, IsDigit high h ∧ IsDigit low l ∧ byte.toNat = 16 * h + l

/-- A plus sign and the digit of a byte below sixteen. -/
def SignedPair (sign low : Char) (byte : UInt8) : Prop :=
  sign = '+' ∧ IsDigit low byte.toNat

/-- Two digits, or a plus sign and a digit. -/
def ReadPair (first second : Char) (byte : UInt8) : Prop :=
  DigitPair first second byte ∨ SignedPair first second byte

/-- The characters are one pair for each of the bytes. -/
inductive Pairs (Denotes : Char → Char → UInt8 → Prop) : List Char → List UInt8 → Prop
  | nil : Pairs Denotes [] []
  | cons {first second : Char} {byte : UInt8} {rest : List Char} {bytes : List UInt8}
      (hpair : Denotes first second byte) (hrest : Pairs Denotes rest bytes) :
      Pairs Denotes (first :: second :: rest) (byte :: bytes)

/-- Characters that are pairs of one kind are pairs of a wider kind. -/
theorem Pairs.mono {P Q : Char → Char → UInt8 → Prop} {chars : List Char} {bytes : List UInt8}
    (h : Pairs P chars bytes)
    (himp : ∀ first ∈ chars, ∀ second byte, P first second byte → Q first second byte) :
    Pairs Q chars bytes := by
  induction h with
  | nil => exact .nil
  | cons hpair _ ih =>
    refine .cons (himp _ List.mem_cons_self _ _ hpair) (ih ?_)
    intro first hfirst
    exact himp first (List.mem_cons_of_mem _ (List.mem_cons_of_mem _ hfirst))

/-! ## Digits -/

instance (c : Char) (value : Nat) : Decidable (IsDigit c value) :=
  inferInstanceAs (Decidable (_ ∨ _))

/-- Every character of a plain text is plain. -/
theorem toNat_lt_of_all {chars : List Char} (h : chars.all (fun c => c.toNat < 128) = true)
    {c : Char} (hc : c ∈ chars) : c.toNat < 128 :=
  of_decide_eq_true (List.all_eq_true.1 h c hc)

/-- A digit is a plain character with a value below sixteen. -/
theorem IsDigit.bounds {c : Char} {value : Nat} (h : IsDigit c value) :
    c.toNat < 128 ∧ value < 16 := by
  rcases h with h | h
  · exact ⟨toNat_lt_of_all (by decide) (List.mem_of_getElem? h),
      (List.getElem?_eq_some_iff.1 h).1⟩
  · refine ⟨toNat_lt_of_all (by decide) (List.mem_of_getElem? h), ?_⟩
    have hlength := (List.getElem?_eq_some_iff.1 h).1
    rw [List.length_map] at hlength
    exact hlength

/-- A character with the value of a digit is plain and the value is below sixteen. -/
theorem bounds_of_digitValue? {c : Char} {value : Nat} (h : digitValue? 16 c = some value) :
    c.toNat < 128 ∧ value < 16 := by
  obtain ⟨hlt, heq⟩ := Option.ite_none_right_eq_some.1 h
  have hvalue : value < 16 := by
    rw [← Option.some.inj heq]
    exact hlt
  refine ⟨Nat.lt_of_not_le fun hlarge => ?_, hvalue⟩
  have hnot : ∀ first last : Char, last.toNat < 128 → ¬ (first ≤ c ∧ c ≤ last) := by
    rintro first last hlast ⟨-, hle⟩
    have hle' : c.toNat ≤ last.toNat := hle
    omega
  unfold digitValue? at h
  rw [if_neg (hnot _ _ (by decide)), if_neg (hnot _ _ (by decide)),
    if_neg (hnot _ _ (by decide))] at h
  cases h

/-- The characters with a value are the digits with this value. -/
theorem digitValue?_eq_some_iff {c : Char} {value : Nat} :
    digitValue? 16 c = some value ↔ IsDigit c value := by
  have hall : ∀ n : Fin 128, ∀ value : Fin 16,
      digitValue? 16 (Char.ofNat n.val) = some value.val ↔
        IsDigit (Char.ofNat n.val) value.val := by
    decide +kernel
  constructor
  · intro h
    obtain ⟨hascii, hvalue⟩ := bounds_of_digitValue? h
    rw [← Char.ofNat_toNat c] at h ⊢
    exact (hall ⟨c.toNat, hascii⟩ ⟨value, hvalue⟩).1 h
  · intro h
    obtain ⟨hascii, hvalue⟩ := h.bounds
    rw [← Char.ofNat_toNat c] at h ⊢
    exact (hall ⟨c.toNat, hascii⟩ ⟨value, hvalue⟩).2 h

/-- A plus sign is no digit. -/
theorem not_isDigit_plus (value : Nat) : ¬ IsDigit '+' value := by
  intro h
  rw [← digitValue?_eq_some_iff] at h
  exact absurd h.symm (Option.some_ne_none value)

/-! ## Pairs of bytes -/

/-- Both characters of a pair are plain. -/
theorem ReadPair.ascii {first second : Char} {byte : UInt8} (h : ReadPair first second byte) :
    first.toNat < 128 ∧ second.toNat < 128 := by
  rcases h with ⟨_, _, hhigh, hlow, -⟩ | ⟨rfl, hlow⟩
  · exact ⟨hhigh.bounds.1, hlow.bounds.1⟩
  · exact ⟨by decide, hlow.bounds.1⟩

/-- Two characters are read as a number if they are two digits or one behind a plus sign. -/
theorem readUnsigned?_eq_some_iff {first second : Char} {byte : UInt8} :
    readUnsigned? 16 256 [first, second] = some byte.toNat ↔ ReadPair first second byte := by
  have hbound : decide (byte.toNat < 256) = true := decide_eq_true byte.toNat_lt
  unfold readUnsigned?
  rw [Option.filter_eq_some_iff, hbound]
  by_cases hfirst : first = '+'
  · subst hfirst
    have hread : readDigits? 16 (dropPlus ['+', second]) = digitValue? 16 second := by
      simp [dropPlus, readDigits?, readDigitsFrom?]
    rw [hread, digitValue?_eq_some_iff]
    constructor
    · rintro ⟨hdigit, -⟩
      exact Or.inr ⟨rfl, hdigit⟩
    · rintro (⟨h, l, hdigit, -⟩ | ⟨-, hdigit⟩)
      · exact absurd hdigit (not_isDigit_plus h)
      · exact ⟨hdigit, rfl⟩
  · have hread : readDigits? 16 (dropPlus [first, second]) =
        (digitValue? 16 first).bind fun h => (digitValue? 16 second).bind fun l =>
          some ((0 * 16 + h) * 16 + l) := by
      have hkeep : dropPlus [first, second] = [first, second] := by simp [dropPlus, hfirst]
      rw [hkeep]
      rfl
    simp only [hread, Option.bind_eq_some_iff, Option.some.injEq, digitValue?_eq_some_iff]
    constructor
    · rintro ⟨⟨h, hhigh, l, hlow, hvalue⟩, -⟩
      exact Or.inl ⟨h, l, hhigh, hlow, by omega⟩
    · rintro (⟨h, l, hhigh, hlow, hvalue⟩ | ⟨heq, -⟩)
      · exact ⟨⟨h, hhigh, l, hlow, by omega⟩, trivial⟩
      · exact absurd heq hfirst

/-- One character beyond ASCII is no number. -/
theorem readUnsigned?_singleton_eq_none {c : Char} (h : 128 ≤ c.toNat) :
    readUnsigned? 16 256 [c] = none := by
  have hplus : c ≠ '+' := by
    rintro rfl
    exact absurd h (by decide)
  have hnone : digitValue? 16 c = none := by
    rw [Option.eq_none_iff_forall_not_mem]
    intro value hvalue
    have hsmall := (bounds_of_digitValue? hvalue).1
    omega
  simp [readUnsigned?, dropPlus, hplus, readDigits?, readDigitsFrom?, hnone]

/-- A character below the surrogates has its own code. -/
theorem toNat_charOfNat {n : Nat} (h : n < 0xD800) : (Char.ofNat n).toNat = n := by
  have hchar : Char.ofNat n = Char.ofNatAux n (Or.inl h) := dif_pos (Or.inl h)
  rw [hchar]
  rfl

/-- What two bytes encode: two characters of ASCII, or one character beyond it or none at all. -/
theorem pairChars_cases (a b : UInt8) :
    (a.toNat < 128 ∧ b.toNat < 128 ∧
      pairChars a b = .ok [Char.ofNat a.toNat, Char.ofNat b.toNat]) ∨
    (¬ (a.toNat < 128 ∧ b.toNat < 128) ∧
      ((∃ fault, pairChars a b = .error fault) ∨
        ∃ c : Char, 128 ≤ c.toNat ∧ pairChars a b = .ok [c])) := by
  unfold pairChars
  by_cases ha : a < 0x80
  · have ha' : a.toNat < 128 := ha
    rw [if_pos ha]
    by_cases hb : b < 0x80
    · exact Or.inl ⟨ha', hb, if_pos hb⟩
    · refine Or.inr ⟨fun h => hb h.2, Or.inl ?_⟩
      rw [if_neg hb]
      split
      · exact ⟨_, rfl⟩
      · exact ⟨_, rfl⟩
  · refine Or.inr ⟨fun h => ha h.1, ?_⟩
    rw [if_neg ha]
    split
    · exact Or.inl ⟨_, rfl⟩
    · rename_i hlead
      have hlow : 0xC2 ≤ a.toNat := by
        simp only [isLead, Bool.not_eq_true', Bool.not_eq_false, Bool.and_eq_true,
          decide_eq_true_eq] at hlead
        exact hlead.1
      split
      · rename_i hshort
        have hshort' : a.toNat < 0xE0 := hshort
        split
        · rename_i hsecond
          rw [Bool.and_eq_true, decide_eq_true_eq, decide_eq_true_eq] at hsecond
          have hfrom : 0x80 ≤ b.toNat := hsecond.1
          have hto : b.toNat ≤ 0xBF := hsecond.2
          refine Or.inr ⟨_, ?_, rfl⟩
          rw [toNat_charOfNat (by omega)]
          omega
        · exact Or.inl ⟨_, rfl⟩
      · split
        · exact Or.inl ⟨_, rfl⟩
        · exact Or.inl ⟨_, rfl⟩

/-- Two bytes are read as a byte if they are plain characters that make a pair for it. -/
theorem pairByte_eq_ok_iff {a b byte : UInt8} :
    pairByte a b = .ok byte ↔
      a.toNat < 128 ∧ b.toNat < 128 ∧
        ReadPair (Char.ofNat a.toNat) (Char.ofNat b.toNat) byte := by
  unfold pairByte
  rcases pairChars_cases a b with ⟨ha, hb, hchars⟩ | ⟨hnot, ⟨fault, hchars⟩ | ⟨c, hc, hchars⟩⟩
  · simp only [ha, hb, true_and, ← readUnsigned?_eq_some_iff, hchars, bind, Except.bind]
    cases hread : readUnsigned? 16 256 [Char.ofNat a.toNat, Char.ofNat b.toNat] with
    | none => simp
    | some n =>
      have hlt : n < 256 := of_decide_eq_true (Option.filter_eq_some_iff.1 hread).2
      simp only [Except.ok.injEq, Option.some.injEq, ← UInt8.toNat_inj, UInt8.toNat_ofNat']
      rw [Nat.mod_eq_of_lt hlt]
  · rw [hchars]
    constructor
    · intro h
      cases h
    · exact fun h => absurd ⟨h.1, h.2.1⟩ hnot
  · rw [hchars]
    constructor
    · intro h
      simp only [bind, Except.bind, readUnsigned?_singleton_eq_none hc] at h
      cases h
    · exact fun h => absurd ⟨h.1, h.2.1⟩ hnot

/-- Bytes are read two by two. -/
theorem pairBytes_cons_eq_ok_iff {a b : UInt8} {rest bytes : List UInt8} :
    pairBytes (a :: b :: rest) = .ok bytes ↔
      ∃ byte others, pairByte a b = .ok byte ∧ pairBytes rest = .ok others ∧
        bytes = byte :: others := by
  rw [pairBytes]
  cases hpair : pairByte a b with
  | error fault => simp [bind, Except.bind]
  | ok byte =>
    cases hrest : pairBytes rest with
    | error fault => simp [bind, Except.bind]
    | ok others => simp [bind, Except.bind, pure, Except.pure, eq_comm]

/-! ## Characters and their bytes -/

/-- A plain character is encoded as one plain byte, and any other as bytes that are not plain. -/
theorem utf8EncodeChar_cases (c : Char) :
    (c.toNat < 128 ∧ String.utf8EncodeChar c = [UInt8.ofNat c.toNat]) ∨
      (128 ≤ c.toNat ∧ ∀ b ∈ String.utf8EncodeChar c, 128 ≤ b.toNat) := by
  have hval : c.val.toNat = c.toNat := rfl
  unfold String.utf8EncodeChar
  rw [hval]
  by_cases hascii : c.toNat ≤ 127
  · exact Or.inl ⟨by omega, if_pos hascii⟩
  · refine Or.inr ⟨by omega, ?_⟩
    dsimp only
    rw [if_neg hascii]
    -- Every byte is a remainder with the highest bit added.
    split
    · simp only [List.mem_cons, List.not_mem_nil, or_false, forall_eq_or_imp, forall_eq,
        UInt8.toNat_ofNat']
      omega
    · split
      · simp only [List.mem_cons, List.not_mem_nil, or_false, forall_eq_or_imp, forall_eq,
          UInt8.toNat_ofNat']
        omega
      · simp only [List.mem_cons, List.not_mem_nil, or_false, forall_eq_or_imp, forall_eq,
          UInt8.toNat_ofNat']
        omega

/-- A plain character is encoded as the byte of its code. -/
theorem utf8EncodeChar_of_ascii {c : Char} (h : c.toNat < 128) :
    String.utf8EncodeChar c = [UInt8.ofNat c.toNat] := by
  rcases utf8EncodeChar_cases c with ⟨-, hbytes⟩ | ⟨hlarge, -⟩
  · exact hbytes
  · omega

/-- The character of a plain byte is encoded as this byte. -/
theorem utf8EncodeChar_ofNat {b : UInt8} (h : b.toNat < 128) :
    String.utf8EncodeChar (Char.ofNat b.toNat) = [b] := by
  have hchar : (Char.ofNat b.toNat).toNat = b.toNat := toNat_charOfNat (by omega)
  rw [utf8EncodeChar_of_ascii (by rwa [hchar]), hchar, UInt8.ofNat_toNat]

/-- White space is left out as a whole, and no other character loses a byte. -/
theorem filter_utf8EncodeChar (c : Char) :
    (String.utf8EncodeChar c).filter (fun b => !isGap b) =
      if isSpace c then [] else String.utf8EncodeChar c := by
  rcases utf8EncodeChar_cases c with ⟨hascii, hbytes⟩ | ⟨hlarge, hbytes⟩
  · have hall : ∀ n : Fin 128, isGap (UInt8.ofNat n.val) = isSpace (Char.ofNat n.val) := by
      decide
    have hgap : isGap (UInt8.ofNat c.toNat) = isSpace c := by
      rw [hall ⟨c.toNat, hascii⟩, Char.ofNat_toNat]
    rw [hbytes, List.filter_cons, List.filter_nil, hgap]
    cases isSpace c with
    | true => rfl
    | false => rfl
  · have hspace : isSpace c = false := by
      unfold isSpace
      rw [List.contains_eq_mem, decide_eq_false_iff_not]
      intro hmem
      have hsmall := toNat_lt_of_all (by decide) hmem
      omega
    rw [hspace, if_neg Bool.false_ne_true, List.filter_eq_self]
    intro b hb
    have hhigh := hbytes b hb
    have hgap : isGap b = true → b.toNat < 128 := by
      simp only [isGap, Bool.or_eq_true, beq_iff_eq]
      rintro ((((rfl | rfl) | rfl) | rfl) | rfl) <;> decide
    rw [Bool.not_eq_true', Bool.eq_false_iff]
    intro hmark
    have hlow := hgap hmark
    omega

/-- What is left of the bytes of a text are the bytes of its significant characters. -/
theorem digits_eq (text : String) :
    text.toUTF8.toList.filter (fun b => !isGap b) =
      (significant text).flatMap String.utf8EncodeChar := by
  rw [toList_toUTF8, List.filter_flatMap]
  unfold significant
  induction text.toList with
  | nil => rfl
  | cons c rest ih =>
    rw [List.flatMap_cons, ih, filter_utf8EncodeChar, List.filter_cons]
    cases isSpace c with
    | true => rfl
    | false => rfl

/-- Different characters have different bytes. -/
theorem flatMap_utf8EncodeChar_inj {chars others : List Char}
    (h : chars.flatMap String.utf8EncodeChar = others.flatMap String.utf8EncodeChar) :
    chars = others := by
  have htexts : String.ofList chars = String.ofList others := by
    apply String.toByteArray_inj.1
    exact congrArg List.toByteArray h
  rw [← String.toList_ofList (l := chars), htexts, String.toList_ofList]

/-- Bytes that are read are those of characters in pairs. -/
theorem exists_pairs_of_pairBytes {digits bytes : List UInt8} (heven : digits.length % 2 = 0)
    (h : pairBytes digits = .ok bytes) :
    ∃ chars, digits = chars.flatMap String.utf8EncodeChar ∧ Pairs ReadPair chars bytes := by
  induction digits using pairBytes.induct generalizing bytes with
  | case1 a b rest ih =>
    obtain ⟨byte, others, hpair, hrest, rfl⟩ := pairBytes_cons_eq_ok_iff.1 h
    obtain ⟨ha, hb, hread⟩ := pairByte_eq_ok_iff.1 hpair
    have heven' : rest.length % 2 = 0 := by
      rw [List.length_cons, List.length_cons] at heven
      omega
    obtain ⟨chars, rfl, hpairs⟩ := ih heven' hrest
    refine ⟨_, ?_, .cons hread hpairs⟩
    rw [List.flatMap_cons, List.flatMap_cons, utf8EncodeChar_ofNat ha, utf8EncodeChar_ofNat hb]
    rfl
  | case2 digits hshort =>
    match digits with
    | [] =>
      cases h
      exact ⟨[], rfl, .nil⟩
    | [a] => cases heven
    | a :: b :: rest => exact (hshort a b rest rfl).elim

/-- The bytes of characters in pairs are read. -/
theorem pairBytes_of_pairs {chars : List Char} {bytes : List UInt8}
    (h : Pairs ReadPair chars bytes) :
    (chars.flatMap String.utf8EncodeChar).length % 2 = 0 ∧
      pairBytes (chars.flatMap String.utf8EncodeChar) = .ok bytes := by
  induction h with
  | nil => exact ⟨rfl, rfl⟩
  | @cons first second byte rest bytes hpair _ ih =>
    obtain ⟨heven, hread⟩ := ih
    obtain ⟨hfirst, hsecond⟩ := hpair.ascii
    have hbyte : ∀ c : Char, c.toNat < 128 → (UInt8.ofNat c.toNat).toNat = c.toNat := by
      intro c hc
      rw [UInt8.toNat_ofNat', Nat.mod_eq_of_lt (by omega)]
    have hread' : pairByte (UInt8.ofNat first.toNat) (UInt8.ofNat second.toNat) = .ok byte := by
      rw [pairByte_eq_ok_iff, hbyte first hfirst, hbyte second hsecond, Char.ofNat_toNat,
        Char.ofNat_toNat]
      exact ⟨hfirst, hsecond, hpair⟩
    rw [List.flatMap_cons, List.flatMap_cons, utf8EncodeChar_of_ascii hfirst,
      utf8EncodeChar_of_ascii hsecond]
    constructor
    · simp only [List.length_append, List.length_cons, List.length_nil]
      omega
    · exact pairBytes_cons_eq_ok_iff.2 ⟨byte, bytes, hread', hread, rfl⟩

/-- A text is read as bytes if its characters, but for white space, are one pair for each of them.
-/
theorem decode_eq_ok_iff {text : String} {bytes : List UInt8} :
    decode text = .ok bytes ↔ Pairs ReadPair (significant text) bytes := by
  have hdecode : decode text = if ((significant text).flatMap String.utf8EncodeChar).length % 2 == 0
      then pairBytes ((significant text).flatMap String.utf8EncodeChar)
      else .error (.oddLength text) := by
    unfold decode
    rw [digits_eq]
  rw [hdecode]
  constructor
  · intro h
    split at h
    · rename_i heven
      obtain ⟨chars, hchars, hpairs⟩ := exists_pairs_of_pairBytes (by simpa using heven) h
      rwa [flatMap_utf8EncodeChar_inj hchars]
    · cases h
  · intro h
    obtain ⟨heven, hread⟩ := pairBytes_of_pairs h
    rw [if_pos (by simpa using heven), hread]

/-! ## Plus signs -/

/-- A plus sign is never white space. -/
theorem plus_mem_iff (text : String) : '+' ∈ text.toList ↔ '+' ∈ significant text := by
  unfold significant
  rw [List.mem_filter]
  exact ⟨fun h => ⟨h, by decide⟩, fun h => h.1⟩

/-- No pair of digits has a plus sign. -/
theorem Pairs.plus_not_mem {chars : List Char} {bytes : List UInt8}
    (h : Pairs DigitPair chars bytes) : '+' ∉ chars := by
  induction h with
  | nil => exact List.not_mem_nil
  | cons hpair _ ih =>
    obtain ⟨_, _, hhigh, hlow, -⟩ := hpair
    intro hmem
    rcases List.mem_cons.1 hmem with rfl | hmem
    · exact not_isDigit_plus _ hhigh
    · rcases List.mem_cons.1 hmem with rfl | hmem
      · exact not_isDigit_plus _ hlow
      · exact ih hmem

/-- A text is read as bytes exactly if, without its white space, it is one pair for each of them:
two hexadecimal digits, or a plus sign and one digit.  So the texts that are read and hold no plus
sign are exactly those of hexadecimal digits in pairs. -/
theorem decode_ok_iff_pairs (text : String) (bytes : List UInt8) :
    (decode text = .ok bytes ↔ Pairs ReadPair (significant text) bytes) ∧
    (decode text = .ok bytes ∧ '+' ∉ text.toList ↔ Pairs DigitPair (significant text) bytes) := by
  refine ⟨decode_eq_ok_iff, ?_⟩
  rw [decode_eq_ok_iff, plus_mem_iff]
  constructor
  · rintro ⟨hpairs, hplus⟩
    refine hpairs.mono ?_
    rintro first hfirst second byte (hdigits | ⟨rfl, -⟩)
    · exact hdigits
    · exact absurd hfirst hplus
  · intro hpairs
    exact ⟨hpairs.mono fun _ _ _ _ => Or.inl, hpairs.plus_not_mem⟩

/-- A plus sign and a digit are read as a byte, though they are no two digits. -/
theorem decode_signed_digit :
    decode "+f" = .ok [0x0F] ∧ ¬ Pairs DigitPair (significant "+f") [0x0F] := by
  have hchars : significant "+f" = ['+', 'f'] := by decide
  rw [decode_eq_ok_iff, hchars]
  refine ⟨.cons (Or.inr ⟨rfl, by decide⟩) .nil, ?_⟩
  intro h
  exact h.plus_not_mem List.mem_cons_self

end CodeListing.Text.HexBytes
