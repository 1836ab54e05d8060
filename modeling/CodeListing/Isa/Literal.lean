import CodeListing.Text.Numeral

/-!
# Numbers in operands

Small numbers are written in decimal, larger ones in hexadecimal, and negative ones as a minus sign
and the magnitude.
-/

set_option autoImplicit false

namespace CodeListing.Isa

/-- The text of a number: decimal up to nine, else hexadecimal. -/
def literal (n : Nat) : String :=
  if n < 10 then Text.decimal n else Text.hexLiteral n

/-- The text of a signed number. -/
def signedLiteral (n : Int) : String :=
  if n < 0 then "-" ++ literal n.natAbs else literal n.natAbs

/-- The signed number that the lowest `bits` bits of a natural number stand for. -/
def signedOfBits (bits : Nat) (n : Nat) : Int :=
  let range := 1 <<< bits
  let low := n % range
  if 2 * low < range then Int.ofNat low else Int.ofNat low - Int.ofNat range

/-- The 64-bit word of a signed number. -/
def wordOfInt (n : Int) : UInt64 :=
  UInt64.ofNat (n % Int.ofNat UInt64.size).toNat

/-- The lowest `bits` bits, extended to a word by their highest bit. -/
def signExtend (bits : Nat) (n : Nat) : UInt64 :=
  wordOfInt (signedOfBits bits n)

/-- The text of a word read as a signed number. -/
def signedWordLiteral (word : UInt64) : String :=
  signedLiteral (signedOfBits 64 word.toNat)

/-- Bytes as a number, the lowest byte first. -/
def littleEndian (bytes : List UInt8) : Nat :=
  bytes.foldr (fun b n => b.toNat + 256 * n) 0

end CodeListing.Isa
