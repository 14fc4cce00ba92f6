import Hseos.Foundation.JsObject

/-! # Timestamps

Texts of the form `2026-01-31T09:30:00.250+01:00`, with optional seconds and
fraction, and the instant `Date.parse` reads from them, in milliseconds since
the epoch. Digits of the fraction after the third are dropped.
-/

namespace Hseos

def isLeapYear (year : Nat) : Bool :=
  (year % 4 = 0 && year % 100 ≠ 0) || year % 400 = 0

def daysInMonth (year month : Nat) : Nat :=
  if month = 2 then (if isLeapYear year then 29 else 28)
  else if month ∈ [4, 6, 9, 11] then 30
  else 31

/-- Days from the epoch to the first day of a year. -/
def daysBeforeYear (year : Nat) : Int :=
  let earlier : Int := (year : Int) - 1
  365 * ((year : Int) - 1970) + (earlier.fdiv 4 - earlier.fdiv 100 + earlier.fdiv 400) - 477

/-- Days from the epoch to a date of the Gregorian calendar. -/
def daysBefore (year month day : Nat) : Int :=
  daysBeforeYear year +
    (((List.range' 1 (month - 1)).map (daysInMonth year)).sum : Nat) + (day : Int) - 1

/-- The seconds and the milliseconds of the optional part after the minutes. -/
def secondsPart? (text : List Char) : Option (Nat × Nat × List Char) :=
  match text with
  | ':' :: a :: b :: rest => do
      let seconds ← decimal? [a, b]
      if 59 < seconds then none
      else
        match rest with
        | '.' :: fraction =>
            let digits := fraction.takeWhile Char.isDigit
            let millis ← decimal? ((digits ++ ['0', '0', '0']).take 3)
            if digits = [] then none else some (seconds, millis, fraction.dropWhile Char.isDigit)
        | _ => some (seconds, 0, rest)
  | _ => some (0, 0, text)

/-- The minutes by which a zone is ahead of UTC. -/
def zoneOffset? (text : List Char) : Option Int :=
  match text with
  | ['Z'] => some 0
  | [sign, a, b, ':', c, d] => do
      let hours ← decimal? [a, b]
      let minutes ← decimal? [c, d]
      if 23 < hours ∨ 59 < minutes then none
      else if sign = '+' then some (60 * hours + minutes : Nat)
      else if sign = '-' then some (-((60 * hours + minutes : Nat) : Int))
      else none
  | _ => none

/-- `Date.parse` on the texts that `z.string().datetime({ offset: true })` accepts. -/
def instant? (text : String) : Option Int :=
  match chars text with
  | y1 :: y2 :: y3 :: y4 :: '-' :: m1 :: m2 :: '-' :: d1 :: d2 :: 'T' ::
      h1 :: h2 :: ':' :: n1 :: n2 :: rest => do
      let year ← decimal? [y1, y2, y3, y4]
      let month ← decimal? [m1, m2]
      let day ← decimal? [d1, d2]
      let hour ← decimal? [h1, h2]
      let minute ← decimal? [n1, n2]
      let (seconds, millis, zone) ← secondsPart? rest
      let offset ← zoneOffset? zone
      if month < 1 ∨ 12 < month ∨ day < 1 ∨ daysInMonth year month < day ∨ 23 < hour ∨ 59 < minute then
        none
      else
        some (1000 * (60 * (60 * (24 * daysBefore year month day + hour) + minute - offset) + seconds) +
          millis)
  | _ => none

def isTimestamp (text : String) : Bool := (instant? text).isSome

/-- The instant of an accepted timestamp. -/
def dateParse (text : {s : String // isTimestamp s = true}) : Int := (instant? text.val).get text.2

example : instant? "2024-02-29T23:59:59.1239+01:30" = some 1709245799123 := by decide +kernel

end Hseos
