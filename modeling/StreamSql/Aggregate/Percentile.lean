/-
  Percentiles with linear interpolation between the closest ranks.

  * `Rankable`: numbers that are totally ordered and can be rounded to a rank;
  * `Rankable.clamp p`: the number, brought between 0 and 1;
  * `percentile? p xs`: the value at the rank `p · (n - 1)` of the sorted list of `n`
    values; between two ranks, the value in proportion.

  Numbers of double precision are sorted in their total order.
-/
import StreamSql.Aggregate.Moments
import StreamSql.Number.FloatParts

namespace StreamSql

/-- Numbers that can be sorted and rounded to a rank. -/
class Rankable (α : Type) extends Add α, Sub α, Mul α, NatCast α where
  /-- the order of the values -/
  below : α → α → Bool
  /-- the first of two numbers is smaller -/
  less : α → α → Bool
  /-- the greatest natural number that is not above -/
  rankBelow : α → Nat
  /-- the least natural number that is not below -/
  rankAbove : α → Nat

/-- The number, brought between 0 and 1; it stays as it is where it cannot be compared. -/
def Rankable.clamp {α : Type} [Rankable α] (p : α) : α :=
  let p := if less p ((0 : Nat) : α) then ((0 : Nat) : α) else p
  if less ((1 : Nat) : α) p then ((1 : Nat) : α) else p

/-- A number from 0 to 1 stays as it is. -/
theorem Rankable.clamp_eq {α : Type} [Rankable α] {p : α}
    (hlow : less p ((0 : Nat) : α) = false) (hhigh : less ((1 : Nat) : α) p = false) :
    clamp p = p := by
  simp [clamp, hlow, hhigh]

/-- The value between the two ranks next to `rank`. -/
def atRank? {α : Type} [Rankable α] (sorted : List α) (rank : α) : Option α := do
  let low ← sorted[Rankable.rankBelow rank]?
  let high ← sorted[Rankable.rankAbove rank]?
  if Rankable.rankBelow rank = Rankable.rankAbove rank then
    return low
  else
    return low + (high - low) * (rank - (Rankable.rankBelow rank : α))

/-- The value at the fraction `p` of the sorted values; none if there are no values. -/
def percentile? {α : Type} [Rankable α] (p : α) (values : List α) : Option α :=
  if values.isEmpty then none
  else
    atRank? (values.mergeSort Rankable.below)
      (Rankable.clamp p * ((values.length - 1 : Nat) : α))

instance rankableDouble : Rankable Double where
  below x y := x.totalKey ≤ y.totalKey
  less x y := x < y
  rankBelow x := (toWordBy FloatParts.floor x).toInt.toNat
  rankAbove x := (toWordBy FloatParts.ceiling x).toInt.toNat

end StreamSql
