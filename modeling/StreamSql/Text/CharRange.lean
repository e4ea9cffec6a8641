/-
  Sets of characters given as closed ranges of code points, the form in which the
  Unicode character database states its properties.

  * `CharRange.holds rs c`: the code point of `c` lies in one of the ranges `rs`.
-/

namespace StreamSql.Text

/-- A closed range of code points. -/
abbrev CharRange := Nat × Nat

/-- The character lies in one of the ranges. -/
def CharRange.holds (ranges : List CharRange) (c : Char) : Bool :=
  ranges.any fun r => r.1 ≤ c.toNat && c.toNat ≤ r.2

theorem CharRange.holds_iff {ranges : List CharRange} {c : Char} :
    CharRange.holds ranges c = true ↔ ∃ r ∈ ranges, r.1 ≤ c.toNat ∧ c.toNat ≤ r.2 := by
  simp [CharRange.holds]

end StreamSql.Text
