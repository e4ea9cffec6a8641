/-
  Reading JSON numbers.

  The digits of a number are gathered into a significand for as long as it stays below
  `2^64`; what follows only moves the exponent (before the point) or is left out (behind
  it).  A whole number within the words is an integer.  Any other number is the
  significand as a float, scaled by a power of ten in one multiplication or division,
  or in several when the power is out of range; an infinite result is no number.
-/
import StreamSql.Json
import StreamSql.Number.Numeral

namespace StreamSql.Json

/-- A number in parts: the digits before the point, those behind it if there is a point,
    and the exponent if there is one. -/
structure NumberText where
  negative : Bool
  whole : List Char
  fraction : Option (List Char)
  exponent : Option (Bool × List Char)

/-- The significand with a further digit, if it stays below `2^64`. -/
def extend? (significand : Nat) (digit : Char) : Option Nat :=
  let n := 10 * significand + (digit.toNat - '0'.toNat)
  if n < Word.size then some n else none

/-- The significand of the digits, and how many digits at the end have no place in it. -/
def gather (significand : Nat) : List Char → Nat × Nat
  | [] => (significand, 0)
  | digit :: rest =>
    match extend? significand digit with
    | some n => gather n rest
    | none => (significand, rest.length + 1)

/-- The significand times a power of ten, in float arithmetic; `none` beyond the floats. -/
def scale? (x : Double) (exponent : Int) : Nat → Option Double
  | 0 => some 0.0
  | fuel + 1 =>
    if exponent.natAbs ≤ 308 then
      let power : Double := OfScientific.ofScientific 1 false exponent.natAbs
      if 0 ≤ exponent then
        let y := x * power
        if y.isInf then none else some y
      else
        some (x / power)
    else if x == 0.0 then some x
    else if 0 ≤ exponent then none
    else scale? (x / 1e308) (exponent + 308) fuel

/-- A float with its sign. -/
def signedResult (negative : Bool) (x : Double) : Json :=
  .float (if negative then -x else x)

/-- A number without a point and an exponent. -/
def ofWhole (negative : Bool) (n : Nat) : Json :=
  if negative then
    if 0 < n ∧ Word.least ≤ -(n : Int) then .integer (-(n : Int))
    else signedResult true (.ofNat n)
  else
    .integer n

/-- The greatest exponent that is written out and still counts. -/
def greatestExponent : Nat := 2147483647

/-- The number that the parts spell. -/
def NumberText.value? (t : NumberText) : Option Json :=
  let (significand, dropped) := gather 0 t.whole
  if dropped = 0 ∧ t.fraction = none ∧ t.exponent = none then
    some (ofWhole t.negative significand)
  else
    let fraction := t.fraction.getD []
    let (significand, left) := gather significand fraction
    let places : Int := (fraction.length : Int) - left
    let start : Int := (dropped : Int) - places
    match t.exponent with
    | none => (scale? (.ofNat significand) start 8).map (signedResult t.negative)
    | some (down, digits) =>
      let n := Numeral.ofDigits digits
      if n ≤ greatestExponent then
        let exponent := if down then start - n else start + n
        (scale? (.ofNat significand) exponent 8).map (signedResult t.negative)
      else if significand ≠ 0 ∧ !down then
        none
      else
        some (signedResult t.negative 0.0)

end StreamSql.Json
