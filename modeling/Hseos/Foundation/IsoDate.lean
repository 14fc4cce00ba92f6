import Mathlib.Data.Int.Notation
import Mathlib.Data.Nat.Notation

/-! # Dates as texts

`Date.prototype.toISOString`, for instants in milliseconds since the epoch.
-/

namespace Hseos

/-- The year, the month and the day of a number of days since the epoch, counted in
years that begin in March. -/
def civilDate (days : Int) : Int × Nat × Nat :=
  let shifted := days + 719468
  let era := shifted.fdiv 146097
  let dayOfEra := (shifted - era * 146097).toNat
  let yearOfEra := (dayOfEra - dayOfEra / 1460 + dayOfEra / 36524 - dayOfEra / 146096) / 365
  let dayOfYear := dayOfEra - (365 * yearOfEra + yearOfEra / 4 - yearOfEra / 100)
  let march := (5 * dayOfYear + 2) / 153
  let day := dayOfYear - (153 * march + 2) / 5 + 1
  let month := if march < 10 then march + 3 else march - 9
  (yearOfEra + era * 400 + (if month ≤ 2 then 1 else 0), month, day)

/-- A number with zeros before it, up to a width. -/
def padded (width n : Nat) : String :=
  let digits := (Nat.repr n).toList
  String.ofList (List.replicate (width - digits.length) '0' ++ digits)

/-- Years that have not four digits are written with a sign and six. -/
def yearText (year : Int) : String :=
  if 0 ≤ year ∧ year ≤ 9999 then padded 4 year.toNat
  else (if year < 0 then "-" else "+") ++ padded 6 year.natAbs

/-- The instants that a `Date` can hold. -/
def isDate (instant : Int) : Bool := -8640000000000000 ≤ instant && instant ≤ 8640000000000000

/-- `new Date(instant).toISOString()`. -/
def isoString (instant : Int) : String :=
  let days := instant.fdiv 86400000
  let millis := (instant - days * 86400000).toNat
  let date := civilDate days
  yearText date.1 ++ "-" ++ padded 2 date.2.1 ++ "-" ++ padded 2 date.2.2 ++ "T" ++
    padded 2 (millis / 3600000) ++ ":" ++ padded 2 (millis / 60000 % 60) ++ ":" ++
    padded 2 (millis / 1000 % 60) ++ "." ++ padded 3 (millis % 1000) ++ "Z"

example : isoString 1709245799123 = "2024-02-29T22:29:59.123Z" := by decide +kernel

end Hseos
