import Hseos.Foundation.JsonOrder

/-! # Number tokens

The number a JSON token denotes: the nearest double, known by the shortest
decimal text that denotes it. Doubles are pairs of a significand and a binary
exponent; decimals are pairs of an integer and a decimal exponent.
-/

namespace Hseos

/-- A positive finite double `significand * 2 ^ exponent`. -/
structure Double where
  significand : Nat
  exponent : Int
  deriving DecidableEq

/-- Round half to even. -/
def roundDiv (num den : Nat) : Nat :=
  let quotient := num / den
  let twice := 2 * (num % den)
  if twice < den ∨ (twice = den ∧ quotient % 2 = 0) then quotient else quotient + 1

/-- A quotient scaled by a power of two, as a numerator and a denominator. -/
def scaleBinary (num den : Nat) (shift : Int) : Nat × Nat :=
  if 0 ≤ shift then (num * 2 ^ shift.toNat, den) else (num, den * 2 ^ (-shift).toNat)

/-- The double nearest to `num / den`; `none` when it overflows. -/
def nearestDouble (num den : Nat) : Option Double :=
  let estimate : Int := (Nat.log2 num : Int) - (Nat.log2 den : Int) - 52
  let low := scaleBinary num den (-(estimate - 1))
  let exponent := max (-1074) (if low.1 < low.2 * 2 ^ 53 then estimate - 1 else estimate)
  let scaled := scaleBinary num den (-exponent)
  let significand := roundDiv scaled.1 scaled.2
  let rounded := if significand = 2 ^ 53 then ⟨2 ^ 52, exponent + 1⟩ else Double.mk significand exponent
  if 971 < rounded.exponent then none else some rounded

/-- The decimal `digits * 10 ^ exponent` as a quotient. -/
def decimalQuotient (digits : Nat) (exponent : Int) : Nat × Nat :=
  if 0 ≤ exponent then (digits * 10 ^ exponent.toNat, 1) else (digits, 10 ^ (-exponent).toNat)

/-- The `count`-digit decimals next to `num / den`, the nearer one first. -/
def neighbours (num den count : Nat) (magnitude : Int) : List Nat :=
  let scaled := decimalQuotient 1 ((count : Int) - magnitude)
  let low := num * scaled.1 / (den * scaled.2)
  if 2 * (num * scaled.1 % (den * scaled.2)) ≤ den * scaled.2 then [low, low + 1]
  else [low + 1, low]

/-- The least number of digits, the digits, and the magnitude of a decimal that
rounds to the double. A neighbour `10 ^ count` is the one digit `1` of the next magnitude. -/
def shortestDigits (value : Double) (num den : Nat) (magnitude : Int) : List Nat → Nat × Nat × Int
  | [] => (17, 0, magnitude)
  | count :: counts =>
      match (neighbours num den count magnitude).find? fun digits =>
        let candidate := decimalQuotient digits (magnitude - count)
        10 ^ (count - 1) ≤ digits && nearestDouble candidate.1 candidate.2 = some value with
      | some digits =>
          if digits = 10 ^ count then (1, 1, magnitude + 1) else (count, digits, magnitude)
      | none => shortestDigits value num den magnitude counts

/-- The decimal text of `digits`, of `count` digits, with the point after `magnitude` of them. -/
def decimalText (count digits : Nat) (magnitude : Int) : String :=
  let text := Nat.repr digits
  if (count : Int) ≤ magnitude ∧ magnitude ≤ 21 then
    text ++ String.ofList (List.replicate (magnitude - count).toNat '0')
  else if 0 < magnitude ∧ magnitude ≤ 21 then
    String.ofList (text.toList.take magnitude.toNat) ++ "." ++
      String.ofList (text.toList.drop magnitude.toNat)
  else if -6 < magnitude ∧ magnitude ≤ 0 then
    "0." ++ String.ofList (List.replicate (-magnitude).toNat '0') ++ text
  else
    let fraction := String.ofList (text.toList.drop 1)
    let power := magnitude - 1
    String.ofList (text.toList.take 1) ++ (if fraction = "" then "" else "." ++ fraction) ++ "e" ++
      (if power < 0 then "-" else "+") ++ Nat.repr power.natAbs

/-- The text of a positive double. -/
def doubleText (value : Double) : String :=
  let quotient := scaleBinary value.significand 1 value.exponent
  let guess : Int := ((Nat.repr quotient.1).toList.length : Int) - (Nat.repr quotient.2).toList.length
  let bound := decimalQuotient 1 guess
  -- `10 ^ (magnitude - 1) ≤ value < 10 ^ magnitude`
  let magnitude := if quotient.1 * bound.2 < bound.1 * quotient.2 then guess else guess + 1
  let shortest := shortestDigits value quotient.1 quotient.2 magnitude (List.range' 1 17)
  decimalText shortest.1 shortest.2.1 shortest.2.2

/-- The text of `digits * 10 ^ exponent` once read as a double. -/
def numberOfDecimal (negative : Bool) (digits : Nat) (exponent : Int) : Option JsNumber :=
  let quotient := decimalQuotient digits exponent
  match nearestDouble quotient.1 quotient.2 with
  | none => some (.infinite negative)
  | some value =>
      if digits = 0 ∨ value.significand = 0 then rawNumber "0"
      else rawNumber ((if negative then "-" else "") ++ doubleText value)

/-- The optional exponent of a number token. -/
def tokenExponent? (text : List Char) : Option Int :=
  match text with
  | [] => some 0
  | e :: rest =>
      if e.toNat = 101 ∨ e.toNat = 69 then
        match rest with
        | '-' :: digits => (decimal? digits).map fun n => -(n : Int)
        | '+' :: digits => (decimal? digits).map fun n => (n : Int)
        | digits => (decimal? digits).map fun n => (n : Int)
      else none

/-- The sign, the digits and the decimal exponent of a number token of the JSON grammar. -/
def tokenDecimal? (token : String) : Option (Bool × Nat × Int) :=
  let (negative, text) := match chars token with
    | '-' :: rest => (true, rest)
    | rest => (false, rest)
  let whole := text.takeWhile Char.isDigit
  let (fraction, rest) := match text.dropWhile Char.isDigit with
    | '.' :: rest => (some (rest.takeWhile Char.isDigit), rest.dropWhile Char.isDigit)
    | rest => (none, rest)
  if whole.head? = some '0' ∧ 1 < whole.length ∨ fraction = some [] then none
  else
    match decimal? whole, decimal? (whole ++ fraction.getD []), tokenExponent? rest with
    | some _, some digits, some power =>
        some (negative, digits, power - (fraction.getD []).length)
    | _, _, _ => none

/-- A number token read as a double. -/
def numberOfToken (token : String) : Option JsNumber :=
  (tokenDecimal? token).bind fun d => numberOfDecimal d.1 d.2.1 d.2.2

namespace JsNumber

/-- The number is finite and written as a double prints. -/
def printed (value : JsNumber) : Bool :=
  match value with
  | .finite text => numberOfToken text.val = some value
  | .infinite _ => false

/-- The number is between zero and a bound. -/
def between0 (bound : Nat) : JsNumber → Bool
  | .finite text =>
      match tokenDecimal? text.val with
      | some (negative, digits, exponent) =>
          let quotient := decimalQuotient digits exponent
          !negative && quotient.1 ≤ bound * quotient.2
      | none => false
  | .infinite _ => false

/-- The natural number that an integral number at least zero is. -/
def natural? : JsNumber → Option Nat
  | .finite text =>
      match tokenDecimal? text.val with
      | some (negative, digits, exponent) =>
          let quotient := decimalQuotient digits exponent
          if quotient.1 % quotient.2 ≠ 0 ∨ (negative ∧ digits ≠ 0) then none
          else some (quotient.1 / quotient.2)
      | none => none
  | .infinite _ => none

end JsNumber

/-- `JSON.parse`, with `none` for a `SyntaxError`. -/
def parseJson (text : String) : Option Json := parseText numberOfToken text

example : parseJson "[0.1,1e21,-0,1.50]" =
    (parseText rawNumber "[0.1,1e+21,0,1.5]") := by decide +kernel

end Hseos
