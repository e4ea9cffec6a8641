/-
  Signed 64-bit words read as integers.  Every operation on words is stated on `Int` and
  brought back in one of two ways:

  * `ofInt? n`: the word with the value `n`, if there is one (`ofInt?_eq_some_iff`);
  * `nearest n`: the word closest to `n` (`toInt_nearest`), which is saturation.
-/

namespace StreamSql.Word

/-- The least value of a word. -/
abbrev least : Int := -9223372036854775808

/-- The greatest value of a word. -/
abbrev greatest : Int := 9223372036854775807

/-- The number of words, which is two to the power 64. -/
abbrev size : Nat := 18446744073709551616

/-- The word with this value, if there is one. -/
def ofInt? (n : Int) : Option Int64 :=
  if least ≤ n ∧ n ≤ greatest then some (Int64.ofInt n) else none

/-- The word closest to this value. -/
def nearest (n : Int) : Int64 :=
  Int64.ofInt (max least (min n greatest))

theorem toInt_bounds (w : Int64) : least ≤ w.toInt ∧ w.toInt ≤ greatest := by
  have h₁ := w.le_toInt
  have h₂ := w.toInt_lt
  simp only [least, greatest]
  omega

theorem toInt_ofInt {n : Int} (h₁ : least ≤ n) (h₂ : n ≤ greatest) :
    (Int64.ofInt n).toInt = n := by
  apply Int64.toInt_ofInt_of_le
  · simpa [least] using h₁
  · simp only [greatest] at h₂; omega

theorem toInt_nearest (n : Int) : (nearest n).toInt = max least (min n greatest) := by
  unfold nearest
  apply toInt_ofInt <;> simp only [least, greatest] <;> omega

/-- **A word is found exactly for its value.** -/
theorem ofInt?_eq_some_iff {n : Int} {w : Int64} : ofInt? n = some w ↔ w.toInt = n := by
  unfold ofInt?
  constructor
  · intro h
    split at h
    · next hn => cases h; exact toInt_ofInt hn.1 hn.2
    · cases h
  · rintro rfl
    rw [if_pos (toInt_bounds w), Int64.ofInt_toInt]

/-- A value that some word has is its own nearest word. -/
theorem nearest_toInt (w : Int64) : nearest w.toInt = w := by
  have h := toInt_bounds w
  apply Int64.toInt_inj.1
  rw [toInt_nearest]
  omega

theorem toInt_max (a b : Int64) : (max a b).toInt = max a.toInt b.toInt := by
  rw [Int.max_def, show max a b = if a ≤ b then b else a from rfl]
  simp only [Int64.le_iff_toInt_le]
  split <;> rfl

theorem nearest_mono {m n : Int} (h : m ≤ n) : (nearest m).toInt ≤ (nearest n).toInt := by
  rw [toInt_nearest, toInt_nearest]
  omega

theorem toInt_nearest_of_fits {n : Int} (h₁ : least ≤ n) (h₂ : n ≤ greatest) :
    (nearest n).toInt = n := by
  rw [toInt_nearest]
  omega

/-- Saturating addition. -/
def addSat (a b : Int64) : Int64 :=
  nearest (a.toInt + b.toInt)

/-- Saturating subtraction. -/
def subSat (a b : Int64) : Int64 :=
  nearest (a.toInt - b.toInt)

end StreamSql.Word
