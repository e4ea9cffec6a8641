/-
  Integers and floats next to each other.

  * `Whole n`: a natural number that is a float; `Nearest.exists_whole`: natural numbers are rounded
    to such numbers;
  * `Nearest.abs_sub_le_of_lt`: how far a number of some size is moved by rounding;
  * `Nearest.floor_quotient`: a quotient of integers that is rounded and truncated.
-/
import Mathlib.Data.Nat.Cast.Order.Field
import Mathlib.Data.Nat.Factorization.Basic
import StreamSql.Proofs.Scaling

namespace StreamSql

/-! ## Whole floats -/

/-- The number is a float: it has 53 binary digits in front of its last zeros. -/
def Whole (n : ℕ) : Prop := ∃ m e : ℕ, m < 2 ^ 53 ∧ n = m * 2 ^ e

theorem whole_of_le {n : ℕ} (h : n ≤ 2 ^ 53) : Whole n := by
  rcases h.lt_or_eq with hlt | rfl
  · exact ⟨n, 0, hlt, (Nat.mul_one n).symm⟩
  · exact ⟨1, 53, by decide, (Nat.one_mul _).symm⟩

theorem whole_two_pow (e : ℕ) : Whole (2 ^ e) :=
  ⟨1, e, by decide, (Nat.one_mul _).symm⟩

/-- A divisor of a whole float is a float. -/
theorem Whole.of_mul {m n : ℕ} (h : Whole (m * n)) (hn : 0 < n) : Whole m := by
  rcases Nat.eq_zero_or_pos m with rfl | hm
  · exact whole_of_le (Nat.zero_le _)
  · obtain ⟨a, e, ha, hmn⟩ := h
    obtain ⟨k, j, hodd, rfl⟩ := Nat.exists_eq_two_pow_mul_odd hm.ne'
    have hapos : 0 < a := Nat.pos_of_ne_zero fun h0 => by
      rw [h0, Nat.zero_mul] at hmn
      exact (Nat.mul_pos hm hn).ne' hmn
    -- the odd part of the divisor divides the digits
    have hdvd : j ∣ a * 2 ^ e := hmn ▸ (Dvd.intro_left _ rfl).mul_right n
    have hdvd' : j ∣ a := (Nat.Coprime.pow_right e hodd.coprime_two_right).dvd_of_dvd_mul_right hdvd
    exact ⟨j, k, (Nat.le_of_dvd hapos hdvd').trans_lt ha, Nat.mul_comm _ _⟩

namespace FloatParts

variable {p : FloatParts} {x : ℚ} {n : ℕ}

theorem exists_size (h : Whole n) : ∃ q : FloatParts, q.Canonical ∧ q.size = n := by
  obtain ⟨m, e, hm, rfl⟩ := h
  rcases Nat.eq_zero_or_pos m with rfl | hpos
  · exact ⟨⟨false, 0, -1074⟩, ⟨by decide, by decide, Or.inr rfl⟩, by simp [size]⟩
  · obtain ⟨q, -, hq, -, -, hv⟩ := ofNat_unpacked hpos hm
    have hdigits := hq.digits hpos hv
    have hexponent := hq.exponent_ge
    refine ⟨⟨false, q.mantissa, q.exponent + e⟩, ⟨hq.mantissa_lt, ?_, Or.inl hdigits⟩, ?_⟩
    · change -1074 ≤ q.exponent + e
      omega
    · rw [size, zpow_add₀ two_ne_zero, ← mul_assoc, hv, zpow_natCast]
      push_cast
      rfl

namespace Nearest

/-- What is not above a whole float is not rounded to more. -/
theorem le_whole (hx : p.Nearest x) (hp : p.Canonical) (hn : Whole n) (h : x ≤ n) :
    p.size ≤ n := by
  obtain ⟨q, hq, hsize⟩ := exists_size hn
  rw [← hsize] at h ⊢
  exact hx.size_le hp hq.nearest hq h

/-- What is not below a whole float is not rounded to less. -/
theorem whole_le (hx : p.Nearest x) (hp : p.Canonical) (hn : Whole n) (h : (n : ℚ) ≤ x) :
    n ≤ p.size := by
  obtain ⟨q, hq, hsize⟩ := exists_size hn
  rw [← hsize] at h ⊢
  exact hq.nearest.size_le hq hx hp h

/-- A whole float is rounded to itself. -/
theorem eq_of_whole (hx : p.Nearest n) (hp : p.Canonical) (hn : Whole n) : p.size = n := by
  obtain ⟨q, hq, hsize⟩ := exists_size hn
  rw [← hsize] at hx ⊢
  exact hx.size_eq hp hq

end Nearest

/-- A float with an exponent is an integer. -/
theorem size_of_exponent_nonneg (h : 0 ≤ p.exponent) :
    p.size = (p.mantissa * 2 ^ p.exponent.toNat : ℕ) := by
  obtain ⟨e, he⟩ := Int.eq_ofNat_of_zero_le h
  rw [size, he, zpow_natCast, Int.toNat_natCast]
  push_cast
  rfl

namespace Nearest

/-- **A natural number is rounded to a whole float.** -/
theorem exists_whole (hx : p.Nearest n) (hp : p.Canonical) : ∃ k, Whole k ∧ p.size = k := by
  rcases Nat.le_total n (2 ^ 53) with hle | hge
  · exact ⟨n, whole_of_le hle, hx.eq_of_whole hp (whole_of_le hle)⟩
  · -- beyond `2^53` there are no floats with a fraction
    have hlarge := hx.whole_le hp (whole_two_pow 53) (Nat.cast_le.2 hge)
    have hmantissa : (p.mantissa : ℚ) < (2 ^ 53 : ℕ) := Nat.cast_lt.2 hp.mantissa_lt
    have hunit : (1 : ℚ) < 2 ^ p.exponent := by
      by_contra hle
      have hscale := mul_le_mul_of_nonneg_left (not_lt.1 hle) (Nat.cast_nonneg (α := ℚ) p.mantissa)
      rw [size] at hlarge
      linarith
    have hexponent : 0 < p.exponent := (one_lt_zpow_iff_right₀ one_lt_two).1 hunit
    exact ⟨_, ⟨_, _, hp.mantissa_lt, rfl⟩, size_of_exponent_nonneg hexponent.le⟩

/-! ## Distances -/

/-- The size of a number bounds the exponent of its float. -/
theorem exponent_le (hx : p.Nearest x) (hp : p.Canonical) (hn : Whole n) (h : x ≤ n) {k : ℤ}
    (hk : -1074 ≤ k) (hlt : (n : ℚ) < 2 ^ (53 + k)) : p.exponent ≤ k :=
  hp.exponent_le_of_size_lt hk ((hx.le_whole hp hn h).trans_lt hlt)

/-- A number below a power of two is moved by half a unit of that size at most. -/
theorem abs_sub_le_of_lt (hx : p.Nearest x) (hp : p.Canonical) (hn : Whole n) (h : x ≤ n) {k : ℤ}
    (hk : -1074 ≤ k) (hlt : (n : ℚ) < 2 ^ (53 + k)) : |x - p.size| ≤ 2 ^ k / 2 := by
  refine (hx.abs_sub_le hp).trans ?_
  have hunit := zpow_le_zpow_right₀ (one_le_two (α := ℚ)) (hx.exponent_le hp hn h hk hlt)
  linarith

/-- A number up to `2^63` is moved by 512 at most. -/
theorem abs_sub_le_of_le (hx : p.Nearest x) (hp : p.Canonical) (h : x ≤ 2 ^ 63) :
    |x - p.size| ≤ 512 := by
  have hle : p.size ≤ 2 ^ 63 := by
    exact_mod_cast hx.le_whole hp (whole_two_pow 63) (by exact_mod_cast h)
  rcases le_or_gt p.exponent 10 with hexponent | hexponent
  · have hunit := zpow_le_zpow_right₀ (one_le_two (α := ℚ)) hexponent
    refine (hx.abs_sub_le hp).trans ?_
    norm_num at hunit
    linarith
  · -- the float is `2^63`, and the floats in front of it are closer to each other
    have hnormal : (2 : ℚ) ^ 52 ≤ p.mantissa := by
      exact_mod_cast hp.normal.resolve_right (by omega)
    have hunit : (2 : ℚ) ^ 11 ≤ 2 ^ p.exponent := by
      rw [← zpow_natCast]
      exact zpow_le_zpow_right₀ one_le_two (by exact_mod_cast hexponent)
    have hmantissa : (p.mantissa : ℚ) = 2 ^ 52 := by
      refine le_antisymm (le_of_mul_le_mul_right ?_ (by positivity : (0 : ℚ) < 2 ^ 11)) hnormal
      calc (p.mantissa : ℚ) * 2 ^ 11 ≤ p.mantissa * 2 ^ p.exponent := by gcongr
        _ ≤ 2 ^ 63 := hle
        _ = 2 ^ 52 * 2 ^ 11 := by norm_num
    have hbelow : p.below = 1 := if_pos ⟨by exact_mod_cast hmantissa, by omega⟩
    have hlow := hx.sub_le hp
    rw [hbelow, Nat.cast_one, one_mul] at hlow
    have hsize : p.size = 2 ^ 52 * 2 ^ p.exponent := by rw [size, hmantissa]
    rw [hsize] at hlow hle ⊢
    rw [abs_le]
    constructor <;> linarith

/-! ## Truncated floats -/

/-- A quotient that is less than an integer by a unit fraction is not rounded up to the integer, if
    floats of its size lie close enough. -/
theorem floor_quotient {a d k : ℕ} (hx : p.Nearest ((a : ℚ) / d)) (hp : p.Canonical) (hd : 0 < d)
    (hd' : d < 2 ^ (k + 1)) (hk : k ≤ 53) (hbound : a / d + 1 < 2 ^ (53 - k)) :
    ⌊p.size⌋₊ = a / d := by
  have hd₀ : (0 : ℚ) < d := Nat.cast_pos.2 hd
  have hsmall : a / d + 1 ≤ 2 ^ 53 :=
    hbound.le.trans (Nat.pow_le_pow_right two_pos (Nat.sub_le ..))
  have hnext : (a : ℚ) / d + 1 / d ≤ (a / d + 1 : ℕ) := by
    have hlt := Nat.lt_mul_div_succ a hd
    rw [Nat.mul_comm] at hlt
    rw [← add_div, div_le_iff₀ hd₀]
    exact_mod_cast hlt
  have hunit : (2 : ℚ) ^ (-k : ℤ) / 2 < 1 / d := by
    calc (2 : ℚ) ^ (-k : ℤ) / 2 = 1 / 2 ^ (k + 1) := by
          rw [zpow_neg, zpow_natCast, pow_succ]
          field_simp
      _ < 1 / d := one_div_lt_one_div_of_lt hd₀ (by exact_mod_cast hd')
  have hlt : ((a / d + 1 : ℕ) : ℚ) < 2 ^ (53 + -k : ℤ) := by
    rw [show (53 : ℤ) + -k = (53 - k : ℕ) by omega, zpow_natCast]
    exact_mod_cast hbound
  have herror := hx.abs_sub_le_of_lt hp (whole_of_le hsmall)
    ((le_add_of_nonneg_right (one_div_pos.2 hd₀).le).trans hnext) (by omega) hlt
  refine (Nat.floor_eq_iff p.size_nonneg).2 ⟨?_, ?_⟩
  · exact hx.whole_le hp (whole_of_le (by omega)) Nat.cast_div_le
  · push_cast at hnext
    linarith [(abs_le.1 herror).1]

/-- A float below `2^54`, truncated, is less than five quarters below the number that was rounded to
    it, and not more than one above. -/
theorem floor_bounds (hx : p.Nearest x) (hp : p.Canonical) (h : x ≤ 2 ^ 54 - 2) :
    x < ⌊p.size⌋₊ + 5 / 4 ∧ (⌊p.size⌋₊ : ℚ) ≤ x + 1 := by
  have hwhole : Whole ((2 ^ 53 - 1) * 2) := ⟨_, 1, by decide, rfl⟩
  have hexponent : p.exponent ≤ 1 :=
    hx.exponent_le hp hwhole (by norm_num at h ⊢; linarith) (by decide) (by norm_num)
  obtain ⟨hlow, hhigh⟩ := abs_le.1 (hx.abs_sub_le hp)
  rcases lt_or_ge p.exponent 0 with hneg | hnonneg
  · have hunit := zpow_le_zpow_right₀ (one_le_two (α := ℚ)) (Int.le_sub_one_of_lt hneg)
    have hfloor := Nat.floor_le p.size_nonneg
    have hfloor' := Nat.lt_floor_add_one p.size
    norm_num at hunit
    constructor <;> linarith
  · have hunit := zpow_le_zpow_right₀ (one_le_two (α := ℚ)) hexponent
    have hfloor : (⌊p.size⌋₊ : ℚ) = p.size := by
      rw [size_of_exponent_nonneg hnonneg, Nat.floor_natCast]
    rw [zpow_one] at hunit
    rw [hfloor]
    constructor <;> linarith

end Nearest

end FloatParts

end StreamSql
