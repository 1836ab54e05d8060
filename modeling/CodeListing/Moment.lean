import CodeListing.Text.Numeral

/-!
# Moments

A moment counts seconds since the start of 1970 and is written as a date and a time of day.
-/

set_option autoImplicit false

namespace CodeListing

/-- A moment since the start of 1970, in universal time. -/
structure Moment where
  seconds : Nat
  nanoseconds : Nat := 0
  deriving DecidableEq, Repr

/-- A day of the calendar. -/
structure CalendarDay where
  year : Nat
  month : Nat
  day : Nat
  deriving DecidableEq, Repr

namespace CalendarDay

/-- The day that lies so many days after the first of January 1970.  Days are counted in years that
begin in March, so that a leap day is the last day of its year, and in eras of 400 years, which all
have the same length. -/
def ofDayNumber (number : Nat) : CalendarDay :=
  let sinceMarch := number + 719468
  let era := sinceMarch / 146097
  let dayOfEra := sinceMarch % 146097
  let yearOfEra := (dayOfEra - dayOfEra / 1460 + dayOfEra / 36524 - dayOfEra / 146096) / 365
  let dayOfYear := dayOfEra - (365 * yearOfEra + yearOfEra / 4 - yearOfEra / 100)
  let shifted := (5 * dayOfYear + 2) / 153
  let month := if shifted < 10 then shifted + 3 else shifted - 9
  { year := yearOfEra + era * 400 + (if month ≤ 2 then 1 else 0)
    month
    day := dayOfYear - (153 * shifted + 2) / 5 + 1 }

example : ofDayNumber 0 = ⟨1970, 1, 1⟩ := by decide
example : ofDayNumber 11016 = ⟨2000, 2, 29⟩ := by decide
example : ofDayNumber 11017 = ⟨2000, 3, 1⟩ := by decide
example : ofDayNumber 20453 = ⟨2025, 12, 31⟩ := by decide

end CalendarDay

namespace Moment

/-- A number with at least so many digits. -/
def padded (width n : Nat) : String :=
  String.ofList (Text.padLeft width '0' (Text.decimal n).toList)

/-- The part of a second: nothing, or milliseconds, microseconds or nanoseconds, whichever is exact
with the fewest digits. -/
def fraction (nanoseconds : Nat) : String :=
  if nanoseconds = 0 then ""
  else if nanoseconds % 1000000 = 0 then "." ++ padded 3 (nanoseconds / 1000000)
  else if nanoseconds % 1000 = 0 then "." ++ padded 6 (nanoseconds / 1000)
  else "." ++ padded 9 nanoseconds

/-- The moment as date, time of day and offset from universal time, which is zero. -/
def text (moment : Moment) : String :=
  let date := CalendarDay.ofDayNumber (moment.seconds / 86400)
  let second := moment.seconds % 86400
  padded 4 date.year ++ "-" ++ padded 2 date.month ++ "-" ++ padded 2 date.day ++ "T" ++
    padded 2 (second / 3600) ++ ":" ++ padded 2 (second / 60 % 60) ++ ":" ++
    padded 2 (second % 60) ++ fraction moment.nanoseconds ++ "+00:00"

end Moment

end CodeListing
