import CodeListing.Text.Numeral

/-!
# Double precision numbers, exactly

A non-negative double is a mantissa times a power of two, and every operation is exact arithmetic
followed by one rounding to the nearest double, ties to the even mantissa.  A double is written with
the fewest decimal digits that read back as the same double: in positional form if it is neither
very small nor very large, and else with an exponent.
-/

set_option autoImplicit false

namespace CodeListing

/-- The value `mantissa * 2 ^ exponent` of a non-negative finite double. -/
structure Binary64 where
  mantissa : Nat
  exponent : Int
  deriving DecidableEq, Repr

namespace Binary64

/-- A mantissa has at most 53 bits. -/
def mantissaBound : Nat := 1 <<< 53

/-- The smallest exponent of a double. -/
def minExponent : Int := -1074

/-- The largest exponent of a double. -/
def maxExponent : Int := 971

/-- `n * 2 ^ e` as a quotient of natural numbers. -/
def scaled (n : Nat) (e : Int) : Nat × Nat :=
  (n <<< e.toNat, 1 <<< (-e).toNat)

/-- The value as a quotient of natural numbers. -/
def toQuotient (x : Binary64) : Nat × Nat :=
  scaled x.mantissa x.exponent

/-- The natural number nearest to `num / den`, the even one in a tie. -/
def nearest (num den : Nat) : Nat :=
  let quotient := num / den
  let twice := 2 * (num % den)
  if den < twice || (twice == den && quotient % 2 == 1) then quotient + 1 else quotient

/-- The double nearest to `num / den`, with the even mantissa in a tie; none beyond the range. -/
def ofQuotient? (num den : Nat) : Option Binary64 :=
  if num == 0 then some ⟨0, minExponent⟩
  else
    let guess := max (Int.ofNat num.log2 - Int.ofNat den.log2 - 53) minExponent
    let quotient := (num <<< (-guess).toNat) / (den <<< guess.toNat)
    let e := if quotient < mantissaBound then guess else guess + 1
    let m := nearest (num <<< (-e).toNat) (den <<< e.toNat)
    let (m, e) := if m == mantissaBound then (mantissaBound / 2, e + 1) else (m, e)
    if maxExponent < e then none else some ⟨m, e⟩

/-- The double nearest to a natural number. -/
def ofNat? (n : Nat) : Option Binary64 :=
  ofQuotient? n 1

/-- The rounded product with the double nearest to `10 ^ k`. -/
def mulPowTen? (x : Binary64) (k : Nat) : Option Binary64 :=
  (ofNat? (Nat.pow 10 k)).bind fun p =>
    ofQuotient? (x.toQuotient.1 * p.toQuotient.1) (x.toQuotient.2 * p.toQuotient.2)

/-- The rounded quotient by the double nearest to `10 ^ k`. -/
def divPowTen? (x : Binary64) (k : Nat) : Option Binary64 :=
  (ofNat? (Nat.pow 10 k)).bind fun p =>
    ofQuotient? (x.toQuotient.1 * p.toQuotient.2) (x.toQuotient.2 * p.toQuotient.1)

/-- The largest power of ten that is used in one step. -/
def largestPowTen : Nat := 308

/-- Division by `10 ^ k` in steps of at most the largest power of ten. -/
def divPowTens? (x : Binary64) (k : Nat) : Option Binary64 :=
  if k ≤ largestPowTen then x.divPowTen? k
  else (x.divPowTen? largestPowTen).bind fun y => y.divPowTens? (k - largestPowTen)
termination_by k
decreasing_by simp only [largestPowTen] at *; omega

/-- The double for `significand * 10 ^ exponent`: the significand and the power of ten are rounded
first, and then their product or quotient is; none beyond the range. -/
def ofScientific? (significand : Nat) (exponent : Int) : Option Binary64 :=
  (ofNat? significand).bind fun x =>
    if x.mantissa == 0 then some x
    else if 0 ≤ exponent then
      if largestPowTen < exponent.toNat then none else x.mulPowTen? exponent.toNat
    else if exponent < -2000 then some ⟨0, minExponent⟩
    else x.divPowTens? exponent.natAbs

/-- Decimal digits and the power of ten of the last one. -/
structure Digits where
  value : Nat
  power : Int

/-- The least `p` with `num / den < 10 ^ p`. -/
def decimalExponent (num den : Nat) : Int :=
  if den ≤ num then (Text.decimalDigits (num / den)).length
  else
    match (List.range 400).find? fun k => den ≤ num * Nat.pow 10 (k + 1) with
    | some k => -Int.ofNat k
    | none => -400

/-- The digits, no more than `count`, that lie in the interval of numbers nearest to the double; of
two such the nearer ones, and the even ones in a tie. -/
def digitsWithin? (x : Binary64) (count : Nat) : Option Digits :=
  let atBoundary := x.mantissa == mantissaBound / 2 && minExponent < x.exponent
  let scale := scaled 1 (x.exponent - 2)
  let num := 4 * x.mantissa * scale.1
  let den := scale.2
  let low := (4 * x.mantissa - (if atBoundary then 1 else 2)) * scale.1
  let high := (4 * x.mantissa + 2) * scale.1
  let inclusive := x.mantissa % 2 == 0
  let power := decimalExponent num den - count
  let up := Nat.pow 10 power.toNat
  let down := Nat.pow 10 (-power).toNat
  let inside (digits : Nat) : Bool :=
    let v := digits * up * den
    if inclusive then low * down ≤ v && v ≤ high * down else low * down < v && v < high * down
  let floor := num * down / (den * up)
  let nearer := nearest (num * down) (den * up)
  let farther := if nearer == floor then floor + 1 else floor
  if inside nearer then some ⟨nearer, power⟩
  else if inside farther then some ⟨farther, power⟩
  else none

/-- The fewest decimal digits that read back as the double. -/
def shortest (x : Binary64) : Digits :=
  if x.mantissa == 0 then ⟨0, 0⟩
  else ((List.range 17).findSome? fun k => x.digitsWithin? (k + 1)).getD ⟨0, 0⟩

/-- The digits in positional form, with a point and at least one digit behind it. -/
def Digits.positional (d : Digits) : String :=
  if 0 ≤ d.power then Text.decimal (d.value * Nat.pow 10 d.power.toNat) ++ ".0"
  else
    let places := d.power.natAbs
    let digits := Text.padLeft (places + 1) '0' (Text.decimalDigits d.value)
    let whole := digits.take (digits.length - places)
    let fraction := digits.drop (digits.length - places)
    let trimmed := (fraction.reverse.dropWhile (· == '0')).reverse
    String.ofList (whole ++ ['.'] ++ (if trimmed.isEmpty then ['0'] else trimmed))

/-- The power of ten of the first digit. -/
def Digits.leading (d : Digits) : Int :=
  (Text.decimalDigits d.value).length - 1 + d.power

/-- The digits with a point behind the first one and the power of ten, whose sign is written. -/
def Digits.scientific (d : Digits) : String :=
  let exponent :=
    (if d.leading < 0 then "e-" else "e+") ++ Text.decimal d.leading.natAbs
  let trimmed := ((Text.decimalDigits d.value).reverse.dropWhile (· == '0')).reverse
  match trimmed with
  | [] => "0.0"
  | [digit] => String.ofList [digit] ++ exponent
  | digit :: fraction => String.ofList (digit :: '.' :: fraction) ++ exponent

/-- The powers of ten of the first digit for which the positional form is used. -/
def isPositional (leading : Int) : Bool :=
  -5 ≤ leading && leading ≤ 15

/-- The shortest text of the double. -/
def text (x : Binary64) : String :=
  let digits := x.shortest
  if isPositional digits.leading then digits.positional else digits.scientific

end Binary64

end CodeListing
