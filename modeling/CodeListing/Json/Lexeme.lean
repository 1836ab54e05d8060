import CodeListing.Document.Basic
import CodeListing.Json.ParseError
import CodeListing.Remainder

/-!
# Strings and numbers of JSON

Each reader returns what it read together with the characters that follow, and a lemma says that
those are no more than there were.
-/

set_option autoImplicit false

namespace CodeListing.Json

open CodeListing.Document (Number)

/-- White space between tokens. -/
def isGap (c : Char) : Bool :=
  c == ' ' || c == '\n' || c == '\t' || c == '\r'

/-- The characters from the first one that is not white space. -/
def skipGap (text : List Char) : List Char :=
  text.dropWhile isGap

/-- Leaving out the front of a text does not make it longer. -/
theorem length_dropWhile_le (p : Char → Bool) (text : List Char) :
    (text.dropWhile p).length ≤ text.length := by
  induction text with
  | nil => simp
  | cons c rest ih =>
    rw [List.dropWhile_cons]
    split
    · simp only [List.length_cons]; omega
    · simp

/-- What follows the first character that is not white space is shorter than the text. -/
theorem length_lt_of_skipGap_eq {text rest : List Char} {c : Char}
    (h : skipGap text = c :: rest) : rest.length < text.length := by
  have hle : (skipGap text).length ≤ text.length := length_dropWhile_le isGap text
  rw [h, List.length_cons] at hle
  exact hle

/-- The number of bytes of a text in UTF-8. -/
def byteCount (text : List Char) : Nat :=
  text.foldl (fun size c => size + c.utf8Size) 0

/-- The number that four hexadecimal digits stand for; the text has ended if it has not even four
bytes. -/
def hexQuad (text : List Char) : Except ParseError (Nat × List Char) :=
  if byteCount (text.take 4) < 4 then .error .endInString
  else
    match Text.readDigits? 16 (text.take 4) with
    | some n => .ok (n, text.drop 4)
    | none => .error .badEscape

/-- The character that a `\u` escape stands for, where a leading surrogate needs a trailing one. -/
def unicodeEscape (text : List Char) : Except ParseError (Char × List Char) := do
  let (high, rest) ← hexQuad text
  if 0xDC00 ≤ high && high ≤ 0xDFFF then .error .loneSurrogate
  else if 0xD800 ≤ high && high ≤ 0xDBFF then
    match rest with
    | '\\' :: 'u' :: rest' =>
      let (low, rest'') ← hexQuad rest'
      if 0xDC00 ≤ low && low ≤ 0xDFFF then
        .ok (Char.ofNat (0x10000 + (high - 0xD800) * 0x400 + (low - 0xDC00)), rest'')
      else .error .loneSurrogate
    | [] | ['\\'] => .error .endInString
    | _ => .error .unfinishedEscape
  else .ok (Char.ofNat high, rest)

/-- The character that the escape behind a backslash stands for. -/
def escape : List Char → Except ParseError (Char × List Char)
  | [] => .error .endInString
  | '"' :: rest => .ok ('"', rest)
  | '\\' :: rest => .ok ('\\', rest)
  | '/' :: rest => .ok ('/', rest)
  | 'b' :: rest => .ok ('\x08', rest)
  | 'f' :: rest => .ok ('\x0c', rest)
  | 'n' :: rest => .ok ('\n', rest)
  | 'r' :: rest => .ok ('\r', rest)
  | 't' :: rest => .ok ('\t', rest)
  | 'u' :: rest => unicodeEscape rest
  | _ :: _ => .error .badEscape

/-- Four hex digits take something from the text. -/
theorem length_hexQuad {text rest : List Char} {n : Nat} (h : hexQuad text = .ok (n, rest)) :
    rest.length < text.length := by
  unfold hexQuad at h
  split at h
  · simp at h
  · rename_i hcount
    split at h
    · simp only [Except.ok.injEq, Prod.mk.injEq] at h
      obtain ⟨-, rfl⟩ := h
      cases text with
      | nil => simp [byteCount] at hcount
      | cons c rest => simp only [List.length_drop, List.length_cons]; omega
    · simp at h

/-- A character given by its code takes something from the text. -/
theorem length_unicodeEscape {text rest : List Char} {c : Char}
    (h : unicodeEscape text = .ok (c, rest)) : rest.length < text.length := by
  unfold unicodeEscape at h
  match hq : hexQuad text with
  | .error e => simp [hq, bind, Except.bind] at h
  | .ok (high, rest₁) =>
    have h₁ := length_hexQuad hq
    simp only [hq, bind, Except.bind] at h
    split at h
    · simp at h
    · split at h
      · split at h
        · rename_i rest₂
          match hq₂ : hexQuad rest₂ with
          | .error e => simp [hq₂] at h
          | .ok (low, rest₃) =>
            have h₂ := length_hexQuad hq₂
            simp only [hq₂] at h
            split at h
            · simp only [Except.ok.injEq, Prod.mk.injEq] at h
              obtain ⟨-, rfl⟩ := h
              simp only [List.length_cons] at h₁
              omega
            · simp at h
        all_goals simp at h
      · simp only [Except.ok.injEq, Prod.mk.injEq] at h
        obtain ⟨-, rfl⟩ := h
        exact h₁

/-- An escaped character takes something from the text. -/
theorem length_escape {text rest : List Char} {c : Char} (h : escape text = .ok (c, rest)) :
    rest.length < text.length := by
  unfold escape at h
  split at h
  case h_10 text' =>
    have hlt := length_unicodeEscape h
    simp only [List.length_cons]
    omega
  all_goals simp_all

/-- The characters of a string up to its closing quote, behind those already read in reverse. -/
def stringBody (done : List Char) (text : List Char) : Except ParseError (String × List Char) :=
  match text with
  | [] => .error .endInString
  | c :: rest =>
    if c == '"' then .ok (String.ofList done.reverse, rest)
    else if c == '\\' then
      match h : escape rest with
      | .error e => .error e
      | .ok (read, rest') =>
        have : rest'.length < rest.length := length_escape h
        stringBody (read :: done) rest'
    else if c.toNat < 0x20 then .error .controlCharacter
    else stringBody (c :: done) rest
termination_by text.length

/-- The body of a string takes at least its closing quote from the text. -/
theorem length_stringBody {done text rest : List Char} {s : String}
    (h : stringBody done text = .ok (s, rest)) : rest.length < text.length := by
  fun_induction stringBody done text with
  | case1 => simp at h
  | case2 done c rest' hc => simp_all
  | case3 done c rest' _ _ e he => simp at h
  | case4 done c rest' _ _ read rest'' he hlt ih =>
    have := ih h
    simp only [List.length_cons]
    omega
  | case5 => simp at h
  | case6 done c rest' _ _ _ ih =>
    have := ih h
    simp only [List.length_cons]
    omega

/-- A number that needs more than this has its remaining digits dropped. -/
def significandBound : Nat := UInt64.size

/-- Reads digits into a significand while it fits 64 bits; also the number of digits that were
used. -/
def accumulate (significand used : Nat) : List Char → Nat × Nat
  | [] => (significand, used)
  | c :: rest =>
    let next := significand * 10 + (c.toNat - 48)
    if next < significandBound then accumulate next (used + 1) rest else (significand, used)

/-- The real number for a significand and a power of ten. -/
def realNumber (negative : Bool) (significand : Nat) (exponent : Int) :
    Except ParseError Number :=
  match Binary64.ofScientific? significand exponent with
  | some x => .ok (.real negative x)
  | none => .error .numberOutOfRange

/-- The whole number if it fits 64 bits with its sign, and else the nearest real number. -/
def wholeNumber (negative : Bool) (significand : Nat) : Except ParseError Number :=
  if !negative then .ok (.whole significand)
  else if significand == 0 || 0x8000000000000000 < significand then realNumber true significand 0
  else .ok (.whole (-significand))

/-- The digits at the start of a text. -/
def digitsOf (text : List Char) : List Char := text.takeWhile Char.isDigit

/-- What follows the digits at the start of a text. -/
def digitsTail (text : List Char) : Tail text :=
  ⟨text.dropWhile Char.isDigit, length_dropWhile_le Char.isDigit text⟩

/-- What follows the sign at the start of a text, if there is one. -/
def signTail (text : List Char) : Tail text :=
  match text with
  | '+' :: rest => (Rest.behind '+' rest).toTail
  | '-' :: rest => (Rest.behind '-' rest).toTail
  | text => .whole text

/-- The number whose mantissa is read, with the exponent that may follow. -/
def exponentPart (negative : Bool) (significand : Nat) (power : Int) (text : List Char) :
    Except ParseError (Number × Tail text) :=
  match text with
  | [] => (realNumber negative significand power).map fun n => (n, .whole [])
  | c :: rest =>
    if c == 'e' || c == 'E' then
      let unsigned := signTail rest
      let negativeExponent := rest.head? == some '-'
      let digits := digitsOf unsigned.1
      if unsigned.1.isEmpty then .error .endInValue
      else if digits.isEmpty then .error .badNumber
      else
        let size := ((Text.readDigits? 10 digits).getD 0 : Nat)
        let exponent := if negativeExponent then power - size else power + size
        (realNumber negative significand exponent).map fun n =>
          (n, ((Rest.behind c rest).transTail (unsigned.trans (digitsTail unsigned.1))).toTail)
    else (realNumber negative significand power).map fun n => (n, .whole (c :: rest))

/-- The number whose whole part is read, with the fraction and the exponent that may follow; `power`
counts the digits of the whole part that were dropped. -/
def fractionPart (negative : Bool) (significand power : Nat) (text : List Char) :
    Except ParseError (Number × Tail text) :=
  match text with
  | '.' :: fraction =>
    let places := digitsOf fraction
    if places.isEmpty then .error (if fraction.isEmpty then .endInValue else .badNumber)
    else
      let (significand, used) := accumulate significand 0 places
      let behind := digitsTail fraction
      (exponentPart negative significand (power - used) behind.1).map fun (n, r) =>
        (n, ((Rest.behind '.' fraction).transTail (behind.trans r)).toTail)
  | text =>
    if text.head?.any (fun c => c == 'e' || c == 'E') then
      exponentPart negative significand power text
    else
      let number :=
        if power == 0 then wholeNumber negative significand
        else realNumber negative significand power
      number.map fun n => (n, .whole text)

/-- The number behind its sign; `first` is the first digit, or whatever stands there. -/
def numberBody (negative : Bool) (first : Char) (rest : List Char) :
    Except ParseError (Number × Tail rest) :=
  if !first.isDigit then .error .badNumber
  else if first == '0' && rest.head?.any Char.isDigit then .error .badNumber
  else
    let digits := if first == '0' then ['0'] else first :: digitsOf rest
    let (significand, used) := accumulate 0 0 digits
    let behind := digitsTail rest
    (fractionPart negative significand (digits.length - used) behind.1).map fun (n, r) =>
      (n, behind.trans r)

end CodeListing.Json
