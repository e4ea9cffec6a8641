/-
  The exact value of a number of double precision.

  * `FloatView`: not a number, an infinity, or a finite value `±mantissa · 2^exponent`
    (`FloatParts`), read off the bits;
  * `FloatParts.truncated`, `floor`, `ceiling`, `roundedMagnitude`: the integers next to it,
    in exact arithmetic;
  * `toWord`: truncation to a word, saturating, with `0` for not a number;
  * `roundHalfAway`: the nearest integral float, a half going away from zero;
  * `remainder`: the exact remainder with the sign of the dividend.
-/
import StreamSql.Number.Double

namespace StreamSql

/-- The finite value `(-1)^negative · mantissa · 2^exponent`. -/
structure FloatParts where
  negative : Bool
  mantissa : Nat
  exponent : Int

/-- What a float stands for. -/
inductive FloatView where
  | notANumber
  | infinite (negative : Bool)
  | finite (parts : FloatParts)

/-- The value of a float. -/
def FloatView.of (x : Double) : FloatView :=
  let biased : Nat := x.magnitude / Double.exponentUnit
  let fraction : Nat := x.magnitude % Double.exponentUnit
  if x.isNaN then .notANumber
  else if x.isInf then .infinite x.isNegative
  else if biased = 0 then .finite ⟨x.isNegative, fraction, -1074⟩
  else .finite ⟨x.isNegative, fraction + Double.exponentUnit, (biased : Int) - 1075⟩

namespace FloatParts

/-- The power of two below the mantissa, `1` for an integral exponent. -/
def denominator (p : FloatParts) : Nat :=
  Nat.pow 2 (-p.exponent).toNat

/-- The magnitude, multiplied by `denominator`. -/
def numerator (p : FloatParts) : Nat :=
  p.mantissa * Nat.pow 2 p.exponent.toNat

/-- The value is not an integer. -/
def hasFraction (p : FloatParts) : Bool :=
  p.numerator % p.denominator != 0

/-- An integer with the sign of the value. -/
def signed (p : FloatParts) (n : Nat) : Int :=
  if p.negative then -(n : Int) else n

/-- The integer toward zero. -/
def truncated (p : FloatParts) : Int :=
  p.signed (p.numerator / p.denominator)

/-- The greatest integer that is not above the value. -/
def floor (p : FloatParts) : Int :=
  p.signed p.numerator / p.denominator

/-- The least integer that is not below the value. -/
def ceiling (p : FloatParts) : Int :=
  -(-p.signed p.numerator / p.denominator)

/-- The magnitude of the nearest integer, a half going up. -/
def roundedMagnitude (p : FloatParts) : Nat :=
  (2 * p.numerator + p.denominator) / (2 * p.denominator)

end FloatParts

/-- The integer toward zero as a word, saturating; `0` for not a number. -/
def toWord (x : Double) : Int64 :=
  match FloatView.of x with
  | .notANumber => 0
  | .infinite negative => Word.nearest (if negative then Word.least else Word.greatest)
  | .finite p => Word.nearest p.truncated

/-- An integer next to the float as a word, saturating; `0` for not a number. -/
def toWordBy (integer : FloatParts → Int) (x : Double) : Int64 :=
  match FloatView.of x with
  | .finite p => Word.nearest (integer p)
  | _ => toWord x

/-- The float is finite and integral. -/
def isIntegral (x : Double) : Bool :=
  match FloatView.of x with
  | .finite p => !p.hasFraction
  | _ => false

/-- A natural number with a sign, which a zero keeps. -/
def signedFloat (negative : Bool) (n : Nat) : Double :=
  if negative then -(n : Double) else n

/-- The nearest integral float, a half going away from zero. -/
def roundHalfAway (x : Double) : Double :=
  match FloatView.of x with
  | .finite p => if p.hasFraction then signedFloat p.negative p.roundedMagnitude else x
  | _ => x

/-- The float `mantissa · 2^exponent`, for a value that a float has exactly. -/
def floatOfParts (p : FloatParts) : Double :=
  if p.mantissa = 0 then
    signedFloat p.negative 0
  else
    let excess : Int := (Nat.log2 p.mantissa : Int) - 52
    let exponent := max (p.exponent + excess) (-1074)
    let mantissa := p.mantissa * Nat.pow 2 (p.exponent - exponent).toNat
      / Nat.pow 2 (exponent - p.exponent).toNat
    let magnitude :=
      if mantissa < Double.exponentUnit then mantissa
      else (exponent + 1075).toNat * Double.exponentUnit + (mantissa - Double.exponentUnit)
    .ofMagnitude p.negative magnitude

/-- The exact remainder of a division toward zero; it has the sign of the dividend.  There is
    none of an infinity and none by zero. -/
def remainder (x y : Double) : Double :=
  match FloatView.of x, FloatView.of y with
  | .notANumber, _ => x
  | _, .notANumber => y
  | .finite p, .finite q =>
    if q.mantissa = 0 then
      .notANumber true
    else
      let exponent := min p.exponent q.exponent
      let a := p.mantissa * Nat.pow 2 (p.exponent - exponent).toNat
      let b := q.mantissa * Nat.pow 2 (q.exponent - exponent).toNat
      floatOfParts ⟨p.negative, a % b, exponent⟩
  | .finite _, .infinite _ => x
  | .infinite _, _ => .notANumber true

/-- `x` to the power `n`, by squaring: the square of the current factor is multiplied in
    for each binary digit `1` of `n`, the lowest first. -/
def powNat (x : Double) (n : Nat) : Double :=
  go x n 1.0 (n + 1)
where
  /-- The result so far times `factor` to the power `n`. -/
  go (factor : Double) (n : Nat) (result : Double) : Nat → Double
    | 0 => result
    | fuel + 1 =>
      let result := if n % 2 = 1 then result * factor else result
      if n / 2 = 0 then result else go (factor * factor) (n / 2) result fuel

/-- `x` to an integral power; a negative one is the reciprocal of the positive one. -/
def powInt (x : Double) (n : Int) : Double :=
  if n < 0 then 1.0 / powNat x n.natAbs else powNat x n.natAbs

/-- The float is an odd integer. -/
def isOdd (x : Double) : Bool :=
  match FloatView.of x with
  | .finite p => p.numerator % (2 * p.denominator) = p.denominator
  | _ => false

/-- `x` to the power `y`.  With the exponent `0` or the base `1` it is `1` even if the other
    operand is not a number; an odd power of what is not a number is never negative. -/
def power (x y : Double) : Double :=
  if y == 0.0 || x == 1.0 then 1.0
  else if x.isNaN && isOdd y then x.abs
  else x.apply₂ Float.pow y

end StreamSql
