import CodeListing.Text.Numeral

/-!
# Bytes as hexadecimal text

Bytes are written as pairs of hexadecimal digits with a blank between them.  Reading ignores ASCII
white space anywhere, cuts what is left of the text's UTF-8 bytes into pairs, and reads each pair as
an unsigned number.
-/

set_option autoImplicit false

namespace CodeListing.Text.HexBytes

/-- Why a text does not stand for bytes. -/
inductive Fault where
  | oddLength (text : String)
  | badByte (pair : String)
  /-- A pair ends inside the character that starts at the index. -/
  | cutCharacter (index : Nat)
  /-- The byte at the index starts no character. -/
  | strayByte (index : Nat)
  deriving DecidableEq, Repr

/-- The text of the reason. -/
def Fault.message : Fault → String
  | .oddLength text => "odd number of hex digits in '" ++ text ++ "'"
  | .badByte pair => "invalid hex byte '" ++ pair ++ "'"
  | .cutCharacter index => "incomplete utf-8 byte sequence from index " ++ decimal index
  | .strayByte index => "invalid utf-8 sequence of 1 bytes from index " ++ decimal index

/-- White space that may stand between digits. -/
def isGap (b : UInt8) : Bool :=
  b == 0x20 || b == 0x09 || b == 0x0A || b == 0x0C || b == 0x0D

/-- The byte starts a character of more than one byte. -/
def isLead (b : UInt8) : Bool :=
  0xC2 ≤ b && b ≤ 0xF4

/-- The second byte may follow the first in a character of three or four bytes. -/
def continuesLong (lead second : UInt8) : Bool :=
  let low : UInt8 := if lead == 0xE0 then 0xA0 else if lead == 0xF0 then 0x90 else 0x80
  let high : UInt8 := if lead == 0xED then 0x9F else if lead == 0xF4 then 0x8F else 0xBF
  low ≤ second && second ≤ high

/-- The characters that two bytes encode. -/
def pairChars (a b : UInt8) : Except Fault (List Char) :=
  if a < 0x80 then
    if b < 0x80 then .ok [Char.ofNat a.toNat, Char.ofNat b.toNat]
    else if isLead b then .error (.cutCharacter 1)
    else .error (.strayByte 1)
  else if !isLead a then .error (.strayByte 0)
  else if a < 0xE0 then
    if 0x80 ≤ b && b ≤ 0xBF then
      .ok [Char.ofNat ((a.toNat - 0xC0) * 64 + (b.toNat - 0x80))]
    else .error (.strayByte 0)
  else if continuesLong a b then .error (.cutCharacter 0)
  else .error (.strayByte 0)

/-- The byte that a pair stands for. -/
def pairByte (a b : UInt8) : Except Fault UInt8 := do
  let chars ← pairChars a b
  match readUnsigned? 16 256 chars with
  | some n => .ok (UInt8.ofNat n)
  | none => .error (.badByte (String.ofList chars))

/-- The bytes that pairs stand for; a last one without partner is left out. -/
def pairBytes : List UInt8 → Except Fault (List UInt8)
  | a :: b :: rest => do
    let byte ← pairByte a b
    let bytes ← pairBytes rest
    return byte :: bytes
  | _ => .ok []

/-- The bytes that a text stands for. -/
def decode (text : String) : Except Fault (List UInt8) :=
  let digits := text.toUTF8.toList.filter fun b => !isGap b
  if digits.length % 2 == 0 then pairBytes digits else .error (.oddLength text)

/-- The two digits of a byte. -/
def byteDigits (b : UInt8) : List Char :=
  padLeft 2 '0' (hexDigits b.toNat)

/-- The bytes as pairs of digits with a blank between them. -/
def encode (bytes : List UInt8) : String :=
  String.ofList (List.intercalate [' '] (bytes.map byteDigits))

end CodeListing.Text.HexBytes
