/-
  The number of arguments that a function takes: at least `least`, and at most `most`
  where there is a bound.
-/

namespace StreamSql

/-- The accepted numbers of arguments. -/
structure Arity where
  least : Nat
  most : Option Nat
  deriving DecidableEq, Repr

namespace Arity

/-- Exactly `n` arguments. -/
def exactly (n : Nat) : Arity := ⟨n, some n⟩

/-- The number of arguments is accepted. -/
def accepts (arity : Arity) (n : Nat) : Bool :=
  arity.least ≤ n && arity.most.all (n ≤ ·)

/-- The accepted numbers in words. -/
def describe (arity : Arity) : String :=
  match arity.most with
  | some most =>
    if most = arity.least then toString most else s!"{arity.least} to {most}"
  | none => s!"at least {arity.least}"

@[simp]
theorem accepts_exactly (n k : Nat) : (exactly n).accepts k = decide (k = n) := by
  simp only [exactly, accepts, Option.all_some]
  by_cases h : k = n
  · simp [h]
  · rcases Nat.lt_or_gt_of_ne h with h' | h' <;> simp [h, Nat.not_le.2 h']

end Arity

end StreamSql
