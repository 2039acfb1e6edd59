/-!
# Calendar dates

Dates of the Gregorian calendar, extended to all years, and the text of an instant. Years are
counted from March, so that the day which only leap years have is the last of its year; 400 years
are an era of 146097 days.

## Main definitions

* `Time.Date`: the type
* `Time.Date.ofDays`: the date of a day counted from 1970-01-01
* `Time.stampText`: the text of an instant
-/

namespace Discography.Time

/-- A date of the Gregorian calendar. -/
structure Date where
  year : Int
  month : Nat
  day : Nat
  deriving DecidableEq

/-- The date of the day that many days after 1970-01-01. -/
def Date.ofDays (days : Int) : Date :=
  let sinceMarch := days + 719468
  let dayOfEra := (sinceMarch % 146097).toNat
  let yearOfEra := (dayOfEra - dayOfEra / 1460 + dayOfEra / 36524 - dayOfEra / 146096) / 365
  let dayOfYear := dayOfEra - (365 * yearOfEra + yearOfEra / 4 - yearOfEra / 100)
  let monthOfYear := (5 * dayOfYear + 2) / 153
  let year := yearOfEra + 400 * (sinceMarch / 146097)
  { year := if monthOfYear < 10 then year else year + 1
    month := if monthOfYear < 10 then monthOfYear + 3 else monthOfYear - 9
    day := dayOfYear - (153 * monthOfYear + 2) / 5 + 1 }

/-- The decimal digits of a number, with zeros before them up to a width. -/
def padded (width n : Nat) : String :=
  let digits := Nat.toDigits 10 n
  String.ofList (List.replicate (width - digits.length) '0' ++ digits)

/-- The text of a year: four digits, and a sign outside the years 0 to 9999. -/
def yearText (year : Int) : String :=
  let digits := padded 4 year.natAbs
  if year < 0 then "-" ++ digits else if 9999 < year then "+" ++ digits else digits

/-- The text of an instant given in milliseconds: its date, and its time to the millisecond. -/
def stampText (instant : Int) : String :=
  let date := Date.ofDays (instant / 86400000)
  let time := (instant % 86400000).toNat
  yearText date.year ++ "-" ++ padded 2 date.month ++ "-" ++ padded 2 date.day ++ " " ++
    padded 2 (time / 3600000) ++ ":" ++ padded 2 (time / 60000 % 60) ++ ":" ++
    padded 2 (time / 1000 % 60) ++ "." ++ padded 3 (time % 1000)

example : Date.ofDays 0 = ⟨1970, 1, 1⟩ := by decide

example : Date.ofDays 11016 = ⟨2000, 2, 29⟩ := by decide

end Discography.Time
