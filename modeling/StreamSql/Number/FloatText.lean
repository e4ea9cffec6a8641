/-
  Text of floats.

  * `plain x`: the shortest decimal in positional notation, with no point for a whole
    number and never an exponent;
  * `literal x`: a whole number is written out exactly and ends in `.0`, anything else is
    `plain`;
  * `tagged x`: like `plain` but with a point always, and scientific notation outside
    `1e-4 ≤ |x| < 1e16`.
-/
import StreamSql.Number.Shortest

namespace StreamSql.FloatText

/-- The decimal digits of a number. -/
def digitsOf (n : Nat) : String :=
  String.ofList (Nat.toDigits 10 n)

/-- A text of `n` zeros. -/
def zeros (n : Nat) : String :=
  String.ofList (List.replicate n '0')

/-- Positional notation without an exponent. -/
def positional (d : Decimal) : String :=
  let digits := Nat.toDigits 10 d.digits
  if 0 ≤ d.exponent then
    String.ofList digits ++ zeros d.exponent.toNat
  else
    let places := (-d.exponent).toNat
    if places < digits.length then
      String.ofList (digits.take (digits.length - places)) ++ "."
        ++ String.ofList (digits.drop (digits.length - places))
    else
      "0." ++ zeros (places - digits.length) ++ String.ofList digits

/-- Scientific notation: one digit before the point, and no point after a single digit. -/
def scientific (d : Decimal) : String :=
  let digits := Nat.toDigits 10 d.digits
  let exponent := d.exponent + ((digits.length : Int) - 1)
  String.ofList (digits.take 1)
    ++ (if digits.length > 1 then "." ++ String.ofList (digits.drop 1) else "")
    ++ "e" ++ toString exponent

/-- The mark of a negative value. -/
def sign (negative : Bool) : String :=
  if negative then "-" else ""

/-- Text of a float whose finite part is written by `finite`. -/
def written (finite : FloatParts → String) (x : Double) : String :=
  match FloatView.of x with
  | .notANumber => "NaN"
  | .infinite negative => sign negative ++ "inf"
  | .finite p => sign p.negative ++ finite p

/-- The shortest decimal of a finite value, in positional notation. -/
def plainParts (p : FloatParts) : String :=
  if p.mantissa = 0 then "0" else positional (Shortest.ofParts p.mantissa p.exponent)

/-- Positional notation without an exponent, and without a point for a whole number. -/
def plain (x : Double) : String :=
  written plainParts x

/-- A whole number in full with the ending `.0`; otherwise the shortest decimal. -/
def literal (x : Double) : String :=
  written (fun p => if p.hasFraction then plainParts p else digitsOf (p.numerator / p.denominator) ++ ".0") x

/-- The shortest decimal with a point, or in scientific notation when it is very large or
    very small. -/
def tagged (x : Double) : String :=
  written
    (fun p =>
      if p.mantissa = 0 then
        "0.0"
      else
        let d := Shortest.ofParts p.mantissa p.exponent
        let top := d.exponent + (Shortest.digitCount d.digits : Int)
        if -4 < top ∧ top ≤ 16 then
          if 0 ≤ d.exponent then positional d ++ ".0" else positional d
        else
          scientific d)
    x

end StreamSql.FloatText
