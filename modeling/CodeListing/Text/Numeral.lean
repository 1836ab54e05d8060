/-!
# Numerals

Natural numbers as digits: hexadecimal and decimal writing, and the reading of unsigned numbers
below a bound.  A number that is read may carry one plus sign and has at least one digit.
-/

set_option autoImplicit false

namespace CodeListing.Text

/-- The value of a digit, letters of either case standing for ten and more. -/
def digitValue? (base : Nat) (c : Char) : Option Nat :=
  let value :=
    if '0' ≤ c ∧ c ≤ '9' then c.toNat - 48
    else if 'a' ≤ c ∧ c ≤ 'z' then c.toNat - 87
    else if 'A' ≤ c ∧ c ≤ 'Z' then c.toNat - 55
    else base
  if value < base then some value else none

/-- The number that digits add to a number already read. -/
def readDigitsFrom? (base : Nat) (read : Nat) : List Char → Option Nat
  | [] => some read
  | c :: rest => (digitValue? base c).bind fun d => readDigitsFrom? base (read * base + d) rest

/-- The number that a non-empty row of digits stands for. -/
def readDigits? (base : Nat) (text : List Char) : Option Nat :=
  if text.isEmpty then none else readDigitsFrom? base 0 text

/-- The text without one plus sign in front of it. -/
def dropPlus : List Char → List Char
  | '+' :: rest => rest
  | text => text

/-- The unsigned number below `bound` that the text stands for. -/
def readUnsigned? (base bound : Nat) (text : List Char) : Option Nat :=
  (readDigits? base (dropPlus text)).filter (· < bound)

/-- The decimal number of 32 bits that the text stands for. -/
def readWord? (text : List Char) : Option UInt32 :=
  (readUnsigned? 10 UInt32.size text).map (UInt32.ofNat ·)

/-- The hexadecimal number of 32 bits that the text stands for. -/
def readHexWord? (text : List Char) : Option UInt32 :=
  (readUnsigned? 16 UInt32.size text).map (UInt32.ofNat ·)

/-- The hexadecimal address that the text stands for. -/
def readHexAddress? (text : List Char) : Option UInt64 :=
  (readUnsigned? 16 UInt64.size text).map (UInt64.ofNat ·)

/-- Lower-case hexadecimal digits. -/
def hexDigits (n : Nat) : List Char :=
  Nat.toDigits 16 n

/-- Upper-case hexadecimal digits. -/
def upperHexDigits (n : Nat) : List Char :=
  (hexDigits n).map Char.toUpper

/-- Decimal digits. -/
def decimalDigits (n : Nat) : List Char :=
  Nat.toDigits 10 n

/-- The characters with `fill` in front of them up to the width. -/
def padLeft (width : Nat) (fill : Char) (text : List Char) : List Char :=
  List.replicate (width - text.length) fill ++ text

/-- The characters with `fill` behind them up to the width. -/
def padRight (width : Nat) (fill : Char) (text : List Char) : List Char :=
  text ++ List.replicate (width - text.length) fill

/-- A number in decimal. -/
def decimal (n : Nat) : String :=
  String.ofList (decimalDigits n)

/-- A number in decimal, with a minus sign if it is negative. -/
def signedDecimal (n : Int) : String :=
  if n < 0 then "-" ++ decimal n.natAbs else decimal n.natAbs

/-- A number in lower-case hexadecimal behind `0x`. -/
def hexLiteral (n : Nat) : String :=
  String.ofList ('0' :: 'x' :: hexDigits n)

/-- A number in upper-case hexadecimal behind `0x`. -/
def upperHexLiteral (n : Nat) : String :=
  String.ofList ('0' :: 'x' :: upperHexDigits n)

end CodeListing.Text
