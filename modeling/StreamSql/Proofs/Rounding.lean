/-
  Quotients of floats are rounded to the nearest float.

  The quotient of two numbers is cut off at a binary place, and two bits tell how the rest compares
  with half a unit of that place (`Approximates`).  Rounded by them it is a float in whose rounding
  interval the quotient lies (`Rounds`).

  * `Approximates.shiftRight`: cutting off more places keeps what the bits tell;
  * `roundWithAccuracy_rounds`: what is cut off finely enough is rounded to the nearest float;
  * `div_rounds`: the quotient of two floats is rounded to the nearest float;
  * `FloatParts.Rounds.nearest`: what is rounded to a float lies in its rounding interval
    (`FloatParts.Nearest`), and a decimal is near it (`Rounds.near`).
-/
import Mathlib.Tactic.FieldSimp
import Mathlib.Tactic.LinearCombination
import StreamSql.Proofs.NumberText

namespace StreamSql

open Float.Model Float.Model.UnpackedFloat

/-! ## Numbers that are cut off -/

/-- The number up to the place behind the mantissa. -/
def cut (em : ExtendedMantissa) : ℚ :=
  em.mantissa + if em.roundBit then 1 / 2 else 0

/-- The mantissa is that of `x`, cut off at the point, and the bits tell about the rest. -/
def Approximates (em : ExtendedMantissa) (x : ℚ) : Prop :=
  if em.stickyBit then cut em < x ∧ x < cut em + 1 / 2 else x = cut em

/-- The rest of a division tells how the quotient goes on. -/
theorem approximates_quotient (n : ℕ) {d : ℕ} (hd : 0 < d) :
    Approximates (.ofMantissaAndAccuracy (n / d) (accuracyOfFraction (n % d) d))
      ((n : ℚ) / d) := by
  have hd' : (0 : ℚ) < d := by exact_mod_cast hd
  have hx : (n : ℚ) / d = (n / d : ℕ) + (n % d : ℕ) / d := by
    rw [div_eq_iff hd'.ne', add_mul, div_mul_cancel₀ _ hd'.ne']
    exact_mod_cast (Nat.div_add_mod' n d).symm
  have hr : ((n % d : ℕ) : ℚ) < d := by exact_mod_cast Nat.mod_lt n hd
  rw [hx]
  generalize n % d = r at *
  unfold accuracyOfFraction
  split
  · next h0 => simp [Approximates, cut, ExtendedMantissa.ofMantissaAndAccuracy, h0]
  · next h0 =>
    have hpos : (0 : ℚ) < r := by exact_mod_cast Nat.pos_of_ne_zero h0
    rcases Nat.lt_trichotomy (2 * r) d with h | h | h
    · have h' : 2 * (r : ℚ) < d := by exact_mod_cast h
      rw [Nat.compare_eq_lt.2 h]
      refine ⟨?_, ?_⟩ <;> simp only [cut, ExtendedMantissa.ofMantissaAndAccuracy]
      · simpa using div_pos hpos hd'
      · have := (div_lt_iff₀ hd').2 (show (r : ℚ) < 1 / 2 * d by linarith)
        simpa using this
    · have h' : 2 * (r : ℚ) = d := by exact_mod_cast h
      rw [Nat.compare_eq_eq.2 h]
      have : (r : ℚ) / d = 1 / 2 := (div_eq_iff hd'.ne').2 (by linarith)
      simp [Approximates, cut, ExtendedMantissa.ofMantissaAndAccuracy, this]
    · have h' : (d : ℚ) < 2 * r := by exact_mod_cast h
      rw [Nat.compare_eq_gt.2 h]
      have h₁ := (lt_div_iff₀ hd').2 (show (1 / 2 : ℚ) * d < r by linarith)
      have h₂ := (div_lt_one hd').2 hr
      refine ⟨?_, ?_⟩ <;> simp only [cut, ExtendedMantissa.ofMantissaAndAccuracy, if_true]
      · linarith
      · linarith

section
variable {em : ExtendedMantissa} {x : ℚ}

/-- Half of the number, cut off at the same place. -/
theorem Approximates.shiftRightOne (h : Approximates em x) :
    Approximates em.shiftRightOne (x / 2) := by
  obtain ⟨m, r, s⟩ := em
  -- the place behind the new mantissa is the last one of the old mantissa
  have hcut : cut (ExtendedMantissa.shiftRightOne ⟨m, r, s⟩) = m / 2 := by
    have hm : (m : ℚ) = 2 * (m / 2 : ℕ) + (m % 2 : ℕ) := by
      exact_mod_cast (Nat.div_add_mod m 2).symm
    rcases Nat.mod_two_eq_zero_or_one m with hm' | hm' <;>
      rw [hm'] at hm <;> simp only [cut, ExtendedMantissa.shiftRightOne, hm'] <;> rw [hm] <;>
      push_cast <;> norm_num
    ring
  unfold Approximates at h ⊢
  rw [hcut]
  cases r <;> cases s <;>
    simp only [cut, ExtendedMantissa.shiftRightOne, Bool.or_true, Bool.or_false, if_true, if_false,
      Bool.false_eq_true] at h ⊢
  · linarith
  · constructor <;> linarith [h.1, h.2]
  · constructor <;> linarith
  · constructor <;> linarith [h.1, h.2]

/-- The number with the point moved, cut off at the same place. -/
theorem Approximates.shiftRight (h : Approximates em x) (n : ℕ) :
    Approximates (em >>> n) (x / 2 ^ n) := by
  change Approximates (n.repeat ExtendedMantissa.shiftRightOne em) _
  induction n with
  | zero => simpa [Nat.repeat] using h
  | succ n ih => simpa only [Nat.repeat, pow_succ, div_mul_eq_div_div] using ih.shiftRightOne

theorem mantissa_shiftRight (em : ExtendedMantissa) (n : ℕ) :
    (em >>> n).mantissa = em.mantissa / 2 ^ n := by
  change (n.repeat ExtendedMantissa.shiftRightOne em).mantissa = _
  induction n with
  | zero => simp [Nat.repeat]
  | succ n ih =>
    simp [Nat.repeat, ExtendedMantissa.shiftRightOne, ih, Nat.div_div_eq_div_mul, pow_succ]

theorem roundedMantissa_bounds (em : ExtendedMantissa) :
    em.mantissa ≤ em.roundedMantissa ∧ em.roundedMantissa ≤ em.mantissa + 1 := by
  obtain ⟨m, r, s⟩ := em
  cases r <;> cases s <;>
    simp only [ExtendedMantissa.roundedMantissa, ExtendedMantissa.accuracy,
      Accuracy.roundToNearestEven] <;> omega

theorem Approximates.mantissa_le (h : Approximates em x) : (em.mantissa : ℚ) ≤ x := by
  obtain ⟨m, r, s⟩ := em
  cases r <;> cases s <;>
    simp only [Approximates, cut, if_true, if_false, Bool.false_eq_true] at h ⊢
  · linarith
  · linarith [h.1]
  · linarith
  · linarith [h.1]

/-- The rounded mantissa is at most half a unit away, and exactly that only if it is even. -/
theorem Approximates.rounded (h : Approximates em x) :
    (em.roundedMantissa : ℚ) - 1 / 2 ≤ x ∧ x ≤ em.roundedMantissa + 1 / 2 ∧
      (em.roundedMantissa % 2 = 1 →
        (em.roundedMantissa : ℚ) - 1 / 2 < x ∧ x < em.roundedMantissa + 1 / 2) := by
  obtain ⟨m, r, s⟩ := em
  cases r <;> cases s <;>
    simp only [Approximates, cut, ExtendedMantissa.roundedMantissa, ExtendedMantissa.accuracy,
      Accuracy.roundToNearestEven, if_true, if_false, Bool.false_eq_true] at h ⊢
  · refine ⟨?_, ?_, fun _ => ⟨?_, ?_⟩⟩ <;> linarith
  · refine ⟨?_, ?_, fun _ => ⟨?_, ?_⟩⟩ <;> linarith [h.1, h.2]
  · -- a tie: the even one of the two mantissas
    rcases Nat.mod_two_eq_zero_or_one m with hm | hm
    · simp only [hm, Nat.add_zero, Nat.zero_ne_one, false_imp_iff, and_true]
      constructor <;> linarith
    · have heven : (m + 1) % 2 ≠ 1 := by omega
      simp only [hm, heven, false_imp_iff, and_true]
      push_cast
      constructor <;> linarith
  · push_cast
    refine ⟨?_, ?_, fun _ => ⟨?_, ?_⟩⟩ <;> linarith [h.1, h.2]

end

/-! ## Rounding -/

namespace FloatParts

/-- The number, in units of the last place, lies in the rounding interval of the magnitude. -/
structure Rounds (p : FloatParts) (x : ℚ) : Prop where
  low : (p.mantissa : ℚ) - p.below / 4 ≤ x
  high : x ≤ p.mantissa + 1 / 2
  odd : p.mantissa % 2 = 1 →
    (p.mantissa : ℚ) - p.below / 4 < x ∧ x < p.mantissa + 1 / 2

/-- The magnitude as arithmetic has it. -/
def unpacked (p : FloatParts) : UnpackedFloat :=
  if h : p.mantissa = 0 then .zero .positive
  else .finite .positive p.mantissa p.exponent (Nat.pos_of_ne_zero h)

theorem unpacked_of_eq_zero {p : FloatParts} (h : p.mantissa = 0) :
    p.unpacked = .zero .positive :=
  dif_pos h

theorem unpacked_of_ne_zero {p : FloatParts} (h : p.mantissa ≠ 0) :
    p.unpacked = .finite .positive p.mantissa p.exponent (Nat.pos_of_ne_zero h) :=
  dif_neg h

/-- The number lies in the rounding interval of the magnitude. -/
structure Nearest (p : FloatParts) (x : ℚ) : Prop where
  low : (((4 * p.mantissa - p.below) * 2 ^ p.rank : ℕ) : ℚ) ≤ x * 2 ^ finest
  high : x * 2 ^ finest ≤ ((4 * p.mantissa + 2) * 2 ^ p.rank : ℕ)
  odd : p.mantissa % 2 = 1 →
    (((4 * p.mantissa - p.below) * 2 ^ p.rank : ℕ) : ℚ) < x * 2 ^ finest ∧
      x * 2 ^ finest < ((4 * p.mantissa + 2) * 2 ^ p.rank : ℕ)

section
variable {p : FloatParts} {x : ℚ} {digits places : ℕ}

/-- A decimal is near a float if it lies in the rounding interval as a number. -/
theorem near_iff : p.Near digits places ↔ p.Nearest (digits / 10 ^ places) := by
  have hten : (0 : ℚ) < 10 ^ places := by positivity
  have hle : ∀ a : ℕ, (a : ℚ) ≤ digits / 10 ^ places * 2 ^ finest ↔
      a * 10 ^ places ≤ digits * 2 ^ finest := fun a => by
    rw [div_mul_eq_mul_div, le_div_iff₀ hten]
    exact_mod_cast Iff.rfl
  have hge : ∀ a : ℕ, (digits : ℚ) / 10 ^ places * 2 ^ finest ≤ a ↔
      digits * 2 ^ finest ≤ a * 10 ^ places := fun a => by
    rw [div_mul_eq_mul_div, div_le_iff₀ hten]
    exact_mod_cast Iff.rfl
  have hlt : ∀ a : ℕ, (a : ℚ) < digits / 10 ^ places * 2 ^ finest ↔
      a * 10 ^ places < digits * 2 ^ finest := fun a => by
    rw [div_mul_eq_mul_div, lt_div_iff₀ hten]
    exact_mod_cast Iff.rfl
  have hgt : ∀ a : ℕ, (digits : ℚ) / 10 ^ places * 2 ^ finest < a ↔
      digits * 2 ^ finest < a * 10 ^ places := fun a => by
    rw [div_mul_eq_mul_div, div_lt_iff₀ hten]
    exact_mod_cast Iff.rfl
  constructor
  · rintro ⟨hlow, hhigh, hodd⟩
    exact ⟨(hle _).2 hlow, (hge _).2 hhigh,
      fun hm => ⟨(hlt _).2 (hodd hm).1, (hgt _).2 (hodd hm).2⟩⟩
  · rintro ⟨hlow, hhigh, hodd⟩
    exact ⟨(hle _).1 hlow, (hge _).1 hhigh,
      fun hm => ⟨(hlt _).1 (hodd hm).1, (hgt _).1 (hodd hm).2⟩⟩

/-- The unit of a magnitude. -/
theorem two_zpow_exponent (he : -1074 ≤ p.exponent) :
    (2 : ℚ) ^ p.exponent * 2 ^ finest = 4 * 2 ^ p.rank := by
  have hsum : p.exponent + (finest : ℕ) = 2 + (p.rank : ℕ) := by
    unfold rank finest
    omega
  calc (2 : ℚ) ^ p.exponent * 2 ^ finest
      = 2 ^ (p.exponent + (finest : ℕ)) := by rw [zpow_add₀ two_ne_zero, zpow_natCast]
    _ = 4 * 2 ^ p.rank := by
      rw [hsum, zpow_add₀ two_ne_zero, zpow_natCast]
      norm_num

/-- What is rounded to a float lies in its rounding interval. -/
theorem Rounds.nearest (h : p.Rounds x) (he : -1074 ≤ p.exponent) (hx : 0 ≤ x) :
    p.Nearest (x * 2 ^ p.exponent) := by
  have hpoint : x * 2 ^ p.exponent * 2 ^ finest = 4 * x * 2 ^ p.rank := by
    linear_combination x * two_zpow_exponent he
  have hscale : (0 : ℚ) < 2 ^ p.rank := by positivity
  have hbelow := p.below_le
  have hodd : p.mantissa % 2 = 1 →
      ((4 * p.mantissa - p.below : ℕ) : ℚ) < 4 * x ∧ 4 * x < (4 * p.mantissa + 2 : ℕ) := by
    intro hm
    rw [Nat.cast_sub (by omega)]
    push_cast
    constructor <;> linarith [h.odd hm]
  have hlow : ((4 * p.mantissa - p.below : ℕ) : ℚ) ≤ 4 * x := by
    rcases Nat.eq_zero_or_pos p.mantissa with hm | hm
    · rw [hm, Nat.mul_zero, Nat.zero_sub]
      push_cast
      linarith
    · rw [Nat.cast_sub (by omega)]
      push_cast
      linarith [h.low]
  have hhigh : 4 * x ≤ ((4 * p.mantissa + 2 : ℕ) : ℚ) := by
    push_cast
    linarith [h.high]
  have hend : ∀ a : ℕ, ((a * 2 ^ p.rank : ℕ) : ℚ) = a * 2 ^ p.rank := fun a => by push_cast; rfl
  refine ⟨?_, ?_, fun hm => ⟨?_, ?_⟩⟩ <;> rw [hpoint, hend]
  · exact mul_le_mul_of_nonneg_right hlow hscale.le
  · exact mul_le_mul_of_nonneg_right hhigh hscale.le
  · exact mul_lt_mul_of_pos_right (hodd hm).1 hscale
  · exact mul_lt_mul_of_pos_right (hodd hm).2 hscale

/-- A decimal that is rounded to a float is near it. -/
theorem Rounds.near (h : p.Rounds x) (he : -1074 ≤ p.exponent)
    (hv : (digits : ℚ) / 10 ^ places = x * 2 ^ p.exponent) : p.Near digits places := by
  have hx : 0 ≤ x := by
    have hvalue : 0 ≤ x * (2 : ℚ) ^ p.exponent := by
      rw [← hv]
      positivity
    exact (mul_nonneg_iff_of_pos_right (zpow_pos two_pos _)).1 hvalue
  exact near_iff.2 (hv ▸ h.nearest he hx)

end

end FloatParts

theorem targetExponent_eq (t : ℤ) : Format.binary64.targetExponent t = max (t - 53) (-1074) := rfl

/-- The place of the first rounding, and what it leaves of the mantissa. -/
theorem shift_bounds {m : ℕ} {e : ℤ} (hfine : e ≤ -1074 ∨ 2 ^ 52 ≤ m) :
    ∃ s : ℕ, Format.binary64.targetExponent (totalExponent m e) = e + s ∧ -1074 ≤ e + s ∧
      m / 2 ^ s < 2 ^ 53 ∧ (2 ^ 52 ≤ m / 2 ^ s ∨ e + s = -1074) := by
  have hlog : 2 ^ 52 ≤ m → 52 ≤ m.log2 := fun h => (Nat.le_log2 (by omega)).2 h
  refine ⟨(Format.binary64.targetExponent (totalExponent m e) - e).toNat, ?_⟩
  rw [targetExponent_eq, totalExponent]
  generalize hs : (max ((m.log2 : ℤ) + 1 + e - 53) (-1074) - e).toNat = s
  refine ⟨by omega, by omega, ?_, ?_⟩
  · rw [Nat.div_lt_iff_lt_mul (by positivity), ← pow_add]
    exact Nat.lt_log2_self.trans_le (Nat.pow_le_pow_right (by decide) (by omega))
  · rcases eq_or_ne (e + (s : ℤ)) (-1074) with h | h
    · exact Or.inr h
    · refine Or.inl ?_
      have hm : m ≠ 0 := by
        rintro rfl
        rcases hfine with hfine | hfine
        · rw [show Nat.log2 0 = 0 from rfl] at hs
          omega
        · omega
      rw [Nat.le_div_iff_mul_le (by positivity), ← pow_add]
      calc 2 ^ (52 + s) ≤ 2 ^ m.log2 := Nat.pow_le_pow_right (by decide) (by omega)
        _ ≤ m := Nat.log2_self_le hm

theorem shiftToTargetExponent_eq {m : ℕ} {e : ℤ} {s : ℕ} (acc : Accuracy)
    (hs : Format.binary64.targetExponent (totalExponent m e) ≤ e + s)
    (hs' : s = 0 ∨ Format.binary64.targetExponent (totalExponent m e) = e + s) :
    shiftToTargetExponent Format.binary64 m e acc =
      (ExtendedMantissa.ofMantissaAndAccuracy m acc >>> s, e + s) := by
  have h : (Format.binary64.targetExponent (totalExponent m e) - e).toNat = s := by omega
  simp [shiftToTargetExponent, shiftToExponent, h]

/-- A number is rounded twice: its rounded mantissa may have one digit too many. -/
theorem roundWithAccuracy_shifted (sign : Sign) {m : ℕ} {e e₁ e₂ : ℤ} {acc : Accuracy}
    {em₁ em₂ : ExtendedMantissa} (h₁ : shiftToTargetExponent Format.binary64 m e acc = (em₁, e₁))
    (h₂ : shiftToTargetExponent Format.binary64 em₁.roundedMantissa e₁ .exact = (em₂, e₂)) :
    roundWithAccuracy Format.binary64 sign m e acc =
      if h : em₂.mantissa = 0 then .zero sign
      else .finite sign em₂.mantissa e₂ (Nat.pos_of_ne_zero h) := by
  unfold roundWithAccuracy
  rw [h₁]
  dsimp only
  rw [h₂]

theorem roundWithAccuracy_eq {m r : ℕ} {e e₁ e₂ : ℤ} {acc : Accuracy} {em₁ em₂ : ExtendedMantissa}
    (h₁ : shiftToTargetExponent Format.binary64 m e acc = (em₁, e₁)) (hr : em₁.roundedMantissa = r)
    (h₂ : shiftToTargetExponent Format.binary64 r e₁ .exact = (em₂, e₂)) :
    roundWithAccuracy Format.binary64 .positive m e acc =
      FloatParts.unpacked ⟨false, em₂.mantissa, e₂⟩ := by
  subst hr
  exact roundWithAccuracy_shifted .positive h₁ h₂

/-- A mantissa that has no more digits than a float stays. -/
theorem shiftToTargetExponent_of_lt {r : ℕ} {e : ℤ} (he : -1074 ≤ e) (hr : r < 2 ^ 53) :
    shiftToTargetExponent Format.binary64 r e .exact = (⟨r, false, false⟩, e) := by
  have hlog : r.log2 ≤ 52 := by
    rcases Nat.eq_zero_or_pos r with h0 | hpos
    · rw [h0]
      decide
    · exact Nat.le_of_lt_succ ((Nat.log2_lt (by omega)).2 hr)
  have htarget : Format.binary64.targetExponent (totalExponent r e) ≤ e + (0 : ℕ) := by
    rw [targetExponent_eq, totalExponent]
    omega
  rw [shiftToTargetExponent_eq .exact htarget (Or.inl rfl)]
  simp only [Nat.cast_zero, add_zero]
  rfl

/-- A mantissa that has been rounded up to one digit more loses a last digit that is `0`. -/
theorem shiftToTargetExponent_of_eq {e : ℤ} (he : -1074 ≤ e) :
    shiftToTargetExponent Format.binary64 (2 ^ 53) e .exact = (⟨2 ^ 52, false, false⟩, e + 1) := by
  have htarget : Format.binary64.targetExponent (totalExponent (2 ^ 53) e) = e + (1 : ℕ) := by
    rw [targetExponent_eq, totalExponent, Nat.log2_two_pow]
    omega
  rw [shiftToTargetExponent_eq .exact htarget.le (Or.inr htarget)]
  rfl

/-- The rounded mantissa is that of the nearest float: if it is the least one with all its digits,
    then the number is not below it. -/
theorem rounds_of_rounded {r : ℕ} {e : ℤ} {x : ℚ} (hleast : r = 2 ^ 52 → e = -1074 ∨ (r : ℚ) ≤ x)
    (h : (r : ℚ) - 1 / 2 ≤ x ∧ x ≤ r + 1 / 2 ∧
      (r % 2 = 1 → (r : ℚ) - 1 / 2 < x ∧ x < r + 1 / 2)) :
    FloatParts.Rounds ⟨false, r, e⟩ x := by
  obtain ⟨hlow, hhigh, hodd⟩ := h
  by_cases hb : r = Double.exponentUnit ∧ e > -1074
  · have hbelow : FloatParts.below ⟨false, r, e⟩ = 1 := if_pos hb
    have hx : (r : ℚ) ≤ x := (hleast hb.1).resolve_left hb.2.ne'
    refine ⟨?_, hhigh, fun hm => ?_⟩
    · rw [hbelow]
      push_cast
      linarith
    · rw [hb.1] at hm
      exact absurd hm (show ¬ Double.exponentUnit % 2 = 1 by decide)
  · have hbelow : FloatParts.below ⟨false, r, e⟩ = 2 := if_neg hb
    refine ⟨?_, hhigh, fun hm => ⟨?_, (hodd hm).2⟩⟩
    · rw [hbelow]
      push_cast
      linarith
    · rw [hbelow]
      push_cast
      linarith [(hodd hm).1]

/-- **Rounding**: a number that is cut off finely enough is rounded to the nearest float. -/
theorem roundWithAccuracy_rounds {m : ℕ} {e : ℤ} {acc : Accuracy} {x : ℚ}
    (h : Approximates (.ofMantissaAndAccuracy m acc) x) (hfine : e ≤ -1074 ∨ 2 ^ 52 ≤ m) :
    ∃ p : FloatParts, roundWithAccuracy Format.binary64 .positive m e acc = p.unpacked ∧
      p.negative = false ∧ p.Canonical ∧ p.Rounds (x * 2 ^ (e - p.exponent)) := by
  obtain ⟨s, hs, hge, hlt, hnormal⟩ := shift_bounds hfine
  have hshift := shiftToTargetExponent_eq acc hs.le (Or.inr hs)
  have hmantissa : (ExtendedMantissa.ofMantissaAndAccuracy m acc >>> s).mantissa = m / 2 ^ s := by
    rw [mantissa_shiftRight]
    cases acc with
    | exact => rfl
    | inexact o => cases o <;> rfl
  have happrox := h.shiftRight s
  have hx : ∀ k : ℕ, x * 2 ^ (e - (e + s + k)) = x / 2 ^ s / 2 ^ k := fun k => by
    rw [show e - (e + s + k) = -((s + k : ℕ) : ℤ) by omega, zpow_neg, zpow_natCast, pow_add,
      ← div_eq_mul_inv, div_mul_eq_div_div]
  have hx₀ := hx 0
  have hx₁ := hx 1
  rw [Nat.cast_zero, add_zero, pow_zero, div_one] at hx₀
  rw [Nat.cast_one, pow_one] at hx₁
  generalize ExtendedMantissa.ofMantissaAndAccuracy m acc >>> s = em at *
  have hbounds := roundedMantissa_bounds em
  have hrounded := happrox.rounded
  have hle := happrox.mantissa_le
  obtain ⟨r, hr⟩ : ∃ r, em.roundedMantissa = r := ⟨_, rfl⟩
  rw [hr] at hbounds hrounded
  rcases (show r ≤ 2 ^ 53 by omega).lt_or_eq with hr53 | rfl
  · refine ⟨_, roundWithAccuracy_eq hshift hr (shiftToTargetExponent_of_lt hge hr53), rfl,
      ⟨hr53, hge, ?_⟩, ?_⟩
    · refine hnormal.imp (fun hm => ?_) id
      rw [← hmantissa] at hm
      exact hm.trans hbounds.1
    · rw [hx₀]
      refine rounds_of_rounded (fun (hleast : r = 2 ^ 52) => ?_) hrounded
      refine hnormal.symm.imp id fun hm => ?_
      rw [← hmantissa] at hm
      rwa [show r = em.mantissa by omega]
  · -- rounded up to the next power of two
    refine ⟨_, roundWithAccuracy_eq hshift hr (shiftToTargetExponent_of_eq hge), rfl,
      ⟨?_, ?_, ?_⟩, ?_⟩
    · change 2 ^ 52 < 2 * Double.exponentUnit
      decide
    · change -1074 ≤ e + s + 1
      omega
    · exact Or.inl (show Double.exponentUnit ≤ 2 ^ 52 by decide)
    · rw [hx₁]
      have hbelow : FloatParts.below ⟨false, 2 ^ 52, e + s + 1⟩ = 1 :=
        if_pos ⟨rfl, show e + s + 1 > -1074 by omega⟩
      obtain ⟨hlow, hhigh, -⟩ := hrounded
      push_cast at hlow hhigh
      refine ⟨?_, ?_, fun hm => absurd hm ?_⟩
      · simp only [hbelow]
        push_cast
        linarith
      · push_cast
        linarith
      · change ¬ 2 ^ 52 % 2 = 1
        decide

/-! ## Division -/

/-- The quotient is cut off finely enough. -/
theorem quotient_fine {m₁ m₂ : ℕ} {e₁ e₂ t : ℤ} (h₁ : 0 < m₁) (h₂ : 0 < m₂)
    (ht : t = min (e₁ - e₂)
      (Format.binary64.targetExponent (totalExponent m₁ e₁ - totalExponent m₂ e₂))) :
    t ≤ -1074 ∨ 2 ^ 52 ≤ m₁ <<< (e₁ - e₂ - t).toNat / m₂ := by
  rw [targetExponent_eq, totalExponent, totalExponent] at ht
  rcases le_or_gt t (-1074) with hle | hgt
  · exact Or.inl hle
  · refine Or.inr ?_
    have hs : 53 + m₂.log2 ≤ m₁.log2 + (e₁ - e₂ - t).toNat := by omega
    generalize (e₁ - e₂ - t).toNat = s at hs
    rw [Nat.le_div_iff_mul_le h₂, Nat.shiftLeft_eq]
    calc 2 ^ 52 * m₂ ≤ 2 ^ 52 * 2 ^ (m₂.log2 + 1) :=
          Nat.mul_le_mul_left _ Nat.lt_log2_self.le
      _ = 2 ^ (53 + m₂.log2) := by ring
      _ ≤ 2 ^ (m₁.log2 + s) := Nat.pow_le_pow_right (by decide) hs
      _ = 2 ^ m₁.log2 * 2 ^ s := pow_add ..
      _ ≤ m₁ * 2 ^ s := Nat.mul_le_mul_right _ (Nat.log2_self_le h₁.ne')

/-- **Division**: the quotient of two floats is rounded to the nearest float. -/
theorem div_rounds {m₁ m₂ : ℕ} (e₁ e₂ : ℤ) (h₁ : 0 < m₁) (h₂ : 0 < m₂) :
    ∃ (p : FloatParts) (x : ℚ),
      div Format.binary64 (.finite .positive m₁ e₁ h₁) (.finite .positive m₂ e₂ h₂) = p.unpacked ∧
      p.negative = false ∧ p.Canonical ∧ p.Rounds x ∧
      x * 2 ^ p.exponent = m₁ * 2 ^ e₁ / (m₂ * 2 ^ e₂) := by
  obtain ⟨t, ht⟩ : ∃ t, t = min (e₁ - e₂)
      (Format.binary64.targetExponent (totalExponent m₁ e₁ - totalExponent m₂ e₂)) := ⟨_, rfl⟩
  obtain ⟨p, hp, hsign, hcanonical, hrounds⟩ := roundWithAccuracy_rounds
    (approximates_quotient (m₁ <<< (e₁ - e₂ - t).toNat) h₂) (quotient_fine h₁ h₂ ht)
  refine ⟨p, _, ?_, hsign, hcanonical, hrounds, ?_⟩
  · rw [← hp, ht]
    rfl
  · have hs : ((e₁ - e₂ - t).toNat : ℤ) = e₁ - e₂ - t := Int.toNat_of_nonneg (by omega)
    rw [Nat.shiftLeft_eq, mul_assoc, ← zpow_add₀ two_ne_zero, sub_add_cancel]
    push_cast
    rw [← zpow_natCast, hs, div_mul_eq_mul_div, mul_assoc, ← zpow_add₀ two_ne_zero, sub_add_cancel,
      zpow_sub₀ two_ne_zero]
    field_simp

end StreamSql
