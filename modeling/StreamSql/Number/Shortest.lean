/-
  The shortest decimal of a float.

  A positive value `m · 2^q` is printed with the fewest digits that still read back as the
  same float.  All reals strictly between the midpoints to its two neighbours round to it,
  and so do the midpoints themselves when `m` is even.  Multiplied by a power of ten, the
  value and its midpoints are integers (`Scaled`), and the grid of `n` digits is the set
  of multiples of a power of ten; the value's two neighbours on the grid are tried for
  `n = 1, 2, …`, and of two hits the nearer one wins, the greater one if they are equally
  near.
-/
import StreamSql.Number.FloatParts

namespace StreamSql

/-- The decimal `digits · 10^exponent`. -/
structure Decimal where
  digits : Nat
  exponent : Int
  deriving DecidableEq, Repr

namespace Shortest

/-- A value with the ends of its rounding interval, all multiplied by `10^places`. -/
structure Scaled where
  value : Nat
  low : Nat
  high : Nat
  places : Nat
  closed : Bool

/-- The rounding interval of `m · 2^q`, with the narrower lower half where `m` is the least
    mantissa of its binade. -/
def interval (m : Nat) (q : Int) : Scaled :=
  let unit := Nat.pow 2 (q - 2).toNat * Nat.pow 5 (2 - q).toNat
  let below := if m = Double.exponentUnit ∧ q > -1074 then 1 else 2
  { value := 4 * m * unit
    low := (4 * m - below) * unit
    high := (4 * m + 2) * unit
    places := (2 - q).toNat
    closed := m % 2 == 0 }

/-- The point lies in the rounding interval. -/
def Scaled.admits (s : Scaled) (x : Nat) : Bool :=
  if s.closed then s.low ≤ x && x ≤ s.high else s.low < x && x < s.high

/-- The multiple of `step` next to the value that lies in the interval; if both do, the nearer
    one, or the greater one where they are equally near. -/
def Scaled.onGrid? (s : Scaled) (step : Nat) : Option Nat :=
  let below := s.value / step
  let above := below + 1
  match s.admits (below * step), s.admits (above * step) with
  | true, true =>
    let down := s.value - below * step
    let up := above * step - s.value
    some (if down < up then below else above)
  | true, false => some below
  | false, true => some above
  | false, false => none

/-- The number of decimal digits. -/
def digitCount (n : Nat) : Nat :=
  (Nat.toDigits 10 n).length

/-- The first hit on the grids of `step, step / 10, …`, `fuel` of them. -/
def Scaled.search (s : Scaled) : Nat → Nat → Decimal
  | 0, _ => ⟨s.value, -s.places⟩
  | fuel + 1, zeros =>
    match s.onGrid? (Nat.pow 10 zeros) with
    | some d => ⟨d, (zeros : Int) - s.places⟩
    | none => if zeros = 0 then ⟨s.value, -s.places⟩ else s.search fuel (zeros - 1)

/-- Moves trailing zeros of the digits into the exponent. -/
def stripZeros (d : Decimal) : Nat → Decimal
  | 0 => d
  | fuel + 1 =>
    if d.digits ≠ 0 ∧ d.digits % 10 = 0 then stripZeros ⟨d.digits / 10, d.exponent + 1⟩ fuel else d

/-- The shortest decimal of the positive value `m · 2^q`. -/
def ofParts (m : Nat) (q : Int) : Decimal :=
  let s := interval m q
  stripZeros (s.search 17 (digitCount s.value - 1)) 400

end Shortest

end StreamSql
