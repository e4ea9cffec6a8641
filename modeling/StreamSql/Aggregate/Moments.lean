/-
  Running moments.

  * `Moments`: the number of the values seen, their mean, and the sum of their squared
    deviations from it, kept up to date one value at a time;
  * `Moments.mean?`, `Moments.variance?`: what they say about the values; the variance of a
    sample divides by one less than the number of values.

  The definitions are the same for every kind of number with the four operations; queries
  use them with floats.
-/

namespace StreamSql

/-- The moments of the values seen. -/
structure Moments (α : Type) where
  count : Nat
  mean : α
  squares : α

namespace Moments

variable {α : Type} [Add α] [Sub α] [Mul α] [Div α] [NatCast α]

/-- No values. -/
def empty : Moments α :=
  ⟨0, ((0 : Nat) : α), ((0 : Nat) : α)⟩

/-- One value more. -/
def add (m : Moments α) (x : α) : Moments α :=
  let count := m.count + 1
  let mean := m.mean + (x - m.mean) / (count : α)
  ⟨count, mean, m.squares + (x - m.mean) * (x - mean)⟩

/-- The moments of a list of values. -/
def ofList (xs : List α) : Moments α :=
  xs.foldl add empty

/-- The mean of the values, if there are any. -/
def mean? (m : Moments α) : Option α :=
  if m.count = 0 then none else some m.mean

/-- The variance of the values, of a sample or of a whole population. -/
def variance? (sample : Bool) (m : Moments α) : Option α :=
  if m.count = 0 then none
  else if sample then
    if m.count < 2 then none else some (m.squares / ((m.count - 1 : Nat) : α))
  else
    some (m.squares / (m.count : α))

theorem count_add (m : Moments α) (x : α) : (m.add x).count = m.count + 1 := rfl

end Moments

end StreamSql
