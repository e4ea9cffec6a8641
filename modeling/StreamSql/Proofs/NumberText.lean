/-
  The texts of numbers determine the numbers.

  A finite float is written by a decimal in its rounding interval (`Near`), and the intervals of
  two floats meet at most in an end that belongs to one of them only (`near_unique`).  So
  floats with one text are one float (`literal_inj`), and the same holds of words
  (`wordText_inj`).
-/
import Mathlib.Tactic.Common
import Mathlib.Tactic.Ring
import Mathlib.Tactic.Positivity
import Mathlib.Tactic.Linarith
import StreamSql.Number.FloatText

namespace StreamSql

/-! ## Rounding intervals -/

namespace FloatParts

/-- The mantissa has all its digits, unless the exponent is the least one. -/
structure Canonical (p : FloatParts) : Prop where
  mantissa_lt : p.mantissa < 2 * Double.exponentUnit
  exponent_ge : -1074 ≤ p.exponent
  normal : Double.exponentUnit ≤ p.mantissa ∨ p.exponent = -1074

/-- The exponent counted from the least one. -/
def rank (p : FloatParts) : Nat := (p.exponent + 1074).toNat

/-- The binary places that all ends of rounding intervals have at most. -/
def finest : Nat := 1076

/-- The distance to the lower end of the rounding interval, in quarters of a unit. -/
def below (p : FloatParts) : Nat :=
  if p.mantissa = Double.exponentUnit ∧ p.exponent > -1074 then 1 else 2

/-- The decimal `digits / 10^places` lies in the rounding interval of the magnitude. -/
structure Near (p : FloatParts) (digits places : Nat) : Prop where
  low : (4 * p.mantissa - p.below) * 2 ^ p.rank * 10 ^ places ≤ digits * 2 ^ finest
  high : digits * 2 ^ finest ≤ (4 * p.mantissa + 2) * 2 ^ p.rank * 10 ^ places
  odd : p.mantissa % 2 = 1 →
    (4 * p.mantissa - p.below) * 2 ^ p.rank * 10 ^ places < digits * 2 ^ finest ∧
      digits * 2 ^ finest < (4 * p.mantissa + 2) * 2 ^ p.rank * 10 ^ places

theorem below_le (p : FloatParts) : p.below ≤ 2 := by
  unfold below
  split <;> omega

/-- The rounding interval of a smaller float ends where that of a greater one begins, or before;
    a common end belongs to one of them only. -/
theorem interval_le {p q : FloatParts} (hp : p.Canonical) (hq : q.Canonical)
    (h : p.mantissa * 2 ^ p.rank < q.mantissa * 2 ^ q.rank) :
    (4 * p.mantissa + 2) * 2 ^ p.rank ≤ (4 * q.mantissa - q.below) * 2 ^ q.rank ∧
      ((4 * p.mantissa + 2) * 2 ^ p.rank = (4 * q.mantissa - q.below) * 2 ^ q.rank →
        p.mantissa % 2 = 1 ∨ q.mantissa % 2 = 1) := by
  have hbelow := q.below_le
  obtain ⟨hp₁, hp₂, hp₃⟩ := hp
  obtain ⟨hq₁, hq₂, hq₃⟩ := hq
  simp only [Double.exponentUnit] at *
  rcases Nat.lt_trichotomy p.rank q.rank with hlt | heq | hgt
  · -- the greater float has a greater exponent, and so all its digits
    have hnormal : 4503599627370496 ≤ q.mantissa := hq₃.resolve_right fun he => by
      rw [rank, rank, he] at hlt
      omega
    obtain ⟨j, hj⟩ := Nat.exists_eq_add_of_lt hlt
    have hpow : 2 ^ q.rank = 2 * 2 ^ j * 2 ^ p.rank := by rw [hj]; ring
    have hj₁ : 1 ≤ 2 ^ j := Nat.one_le_two_pow
    have hone : q.mantissa = 4503599627370496 ∨ q.below ≤ 2 ∧ 4503599627370496 < q.mantissa := by
      omega
    have hsize : 2 * (4 * q.mantissa - q.below) ≤ (4 * q.mantissa - q.below) * (2 * 2 ^ j) := by
      nlinarith
    have hbelow' : q.mantissa = 4503599627370496 → q.below = 1 := fun he => by
      have : q.exponent > -1074 := by
        unfold rank at hlt
        omega
      simp [below, he, this]
    have hle : 4 * p.mantissa + 2 ≤ 2 * (4 * q.mantissa - q.below) := by omega
    have hpos : 0 < 2 ^ p.rank := by positivity
    rw [hpow, ← Nat.mul_assoc]
    refine ⟨Nat.mul_le_mul_right _ (hle.trans hsize), fun he => Or.inl ?_⟩
    have he' := Nat.eq_of_mul_eq_mul_right hpos he
    omega
  · rw [heq] at h ⊢
    have hlt := Nat.lt_of_mul_lt_mul_right h
    refine ⟨Nat.mul_le_mul_right _ (by omega), fun he => ?_⟩
    have he' := Nat.eq_of_mul_eq_mul_right (by positivity) he
    omega
  · -- a smaller exponent would make the greater float the smaller one
    have hnormal : 4503599627370496 ≤ p.mantissa := hp₃.resolve_right fun he => by
      rw [rank, rank, he] at hgt
      omega
    obtain ⟨j, hj⟩ := Nat.exists_eq_add_of_lt hgt
    have hpow : 2 ^ p.rank = 2 * 2 ^ j * 2 ^ q.rank := by rw [hj]; ring
    rw [hpow, ← Nat.mul_assoc] at h
    have hlt := Nat.lt_of_mul_lt_mul_right h
    have hj₁ : 1 ≤ 2 ^ j := Nat.one_le_two_pow
    have : p.mantissa * 2 ≤ p.mantissa * (2 * 2 ^ j) := by nlinarith
    omega

theorem not_near_of_lt {p q : FloatParts} (hp : p.Canonical) (hq : q.Canonical)
    (h : p.mantissa * 2 ^ p.rank < q.mantissa * 2 ^ q.rank) {digits places : Nat}
    (hnp : p.Near digits places) (hnq : q.Near digits places) : False := by
  obtain ⟨hle, hend⟩ := interval_le hp hq h
  have hle' := Nat.mul_le_mul_right (10 ^ places) hle
  have heq : (4 * p.mantissa + 2) * 2 ^ p.rank * 10 ^ places =
      (4 * q.mantissa - q.below) * 2 ^ q.rank * 10 ^ places :=
    Nat.le_antisymm hle' (hnq.low.trans hnp.high)
  rcases hend (Nat.eq_of_mul_eq_mul_right (by positivity) heq) with hodd | hodd
  · have := (hnp.odd hodd).2
    have := hnq.low
    omega
  · have := (hnq.odd hodd).1
    have := hnp.high
    omega

/-- Parts of one magnitude are the same. -/
theorem eq_of_magnitude {p q : FloatParts} (hp : p.Canonical) (hq : q.Canonical)
    (h : p.mantissa * 2 ^ p.rank = q.mantissa * 2 ^ q.rank) :
    p.mantissa = q.mantissa ∧ p.exponent = q.exponent := by
  obtain ⟨hp₁, hp₂, hp₃⟩ := hp
  obtain ⟨hq₁, hq₂, hq₃⟩ := hq
  simp only [Double.exponentUnit] at *
  have hlt : ∀ a b : FloatParts, a.mantissa < 2 * 4503599627370496 →
      (4503599627370496 ≤ b.mantissa ∨ b.exponent = -1074) → -1074 ≤ b.exponent →
      a.mantissa * 2 ^ a.rank = b.mantissa * 2 ^ b.rank → ¬ a.rank < b.rank := by
    intro a b ha hb hb' hab hr
    have hnormal : 4503599627370496 ≤ b.mantissa := hb.resolve_right fun he => by
      rw [rank, rank, he] at hr
      omega
    obtain ⟨j, hj⟩ := Nat.exists_eq_add_of_lt hr
    have hpow : 2 ^ b.rank = 2 * 2 ^ j * 2 ^ a.rank := by rw [hj]; ring
    rw [hpow, ← Nat.mul_assoc] at hab
    have hab' := Nat.eq_of_mul_eq_mul_right (by positivity) hab
    have hj₁ : 1 ≤ 2 ^ j := Nat.one_le_two_pow
    have : b.mantissa * 2 ≤ b.mantissa * (2 * 2 ^ j) := by nlinarith
    omega
  have hrank : p.rank = q.rank := by
    have h₁ := hlt p q hp₁ hq₃ hq₂ h
    have h₂ := hlt q p hq₁ hp₃ hp₂ h.symm
    omega
  rw [hrank] at h
  refine ⟨Nat.eq_of_mul_eq_mul_right (by positivity) h, ?_⟩
  unfold rank at hrank
  omega

/-- **A decimal is near one float** of each sign. -/
theorem near_unique {p q : FloatParts} (hp : p.Canonical) (hq : q.Canonical) {digits places : Nat}
    (hnp : p.Near digits places) (hnq : q.Near digits places) :
    p.mantissa = q.mantissa ∧ p.exponent = q.exponent := by
  rcases Nat.lt_trichotomy (p.mantissa * 2 ^ p.rank) (q.mantissa * 2 ^ q.rank) with h | h | h
  · exact (not_near_of_lt hp hq h hnp hnq).elim
  · exact eq_of_magnitude hp hq h
  · exact (not_near_of_lt hq hp h hnq hnp).elim

end FloatParts

/-! ## Shortest decimals -/

namespace Shortest

/-- The decimal stands for a point of the interval. -/
def Scaled.Represents (s : Scaled) (d : Decimal) : Prop :=
  ∃ zeros : Nat, d.exponent = (zeros : Int) - s.places ∧
    s.admits (d.digits * 10 ^ zeros) = true

theorem onGrid?_admits {s : Scaled} {step d : Nat} (h : s.onGrid? step = some d) :
    s.admits (d * step) = true := by
  unfold Scaled.onGrid? at h
  simp only at h
  split at h
  · next hb ha =>
    obtain rfl := Option.some.inj h
    split
    · exact hb
    · exact ha
  · next hb _ =>
    obtain rfl := Option.some.inj h
    exact hb
  · next _ ha =>
    obtain rfl := Option.some.inj h
    exact ha
  · cases h

theorem search_represents {s : Scaled} (hs : s.admits s.value = true) (fuel zeros : Nat) :
    s.Represents (s.search fuel zeros) := by
  have hvalue : s.Represents ⟨s.value, -s.places⟩ := ⟨0, by simp, by simpa using hs⟩
  induction fuel generalizing zeros with
  | zero => exact hvalue
  | succ fuel ih =>
    unfold Scaled.search
    split
    · next d hd => exact ⟨zeros, rfl, onGrid?_admits hd⟩
    · split
      · exact hvalue
      · exact ih _

theorem stripZeros_represents {s : Scaled} (fuel : Nat) {d : Decimal} (h : s.Represents d) :
    s.Represents (stripZeros d fuel) := by
  induction fuel generalizing d with
  | zero => exact h
  | succ fuel ih =>
    unfold stripZeros
    split
    · next hd =>
      obtain ⟨zeros, he, hadmits⟩ := h
      refine ih ⟨zeros + 1, ?_, ?_⟩
      · simp only [he]
        omega
      · have hten : d.digits / 10 * 10 = d.digits := by omega
        rwa [Nat.pow_succ', ← Nat.mul_assoc, hten]
    · exact h

theorem unit_pos (q : Int) : 0 < Nat.pow 2 (q - 2).toNat * Nat.pow 5 (2 - q).toNat := by
  simp only [Nat.pow_eq]
  positivity

theorem interval_admits {m : Nat} (hm : 0 < m) (q : Int) :
    (interval m q).admits (interval m q).value = true := by
  have hu := unit_pos q
  unfold Scaled.admits interval
  simp only
  generalize Nat.pow 2 (q - 2).toNat * Nat.pow 5 (2 - q).toNat = unit at hu
  have hbelow : 0 < (if m = Double.exponentUnit ∧ q > -1074 then 1 else 2) := by
    split <;> omega
  generalize (if m = Double.exponentUnit ∧ q > -1074 then 1 else 2) = below at hbelow
  have hlow : (4 * m - below) * unit < 4 * m * unit :=
    Nat.mul_lt_mul_of_pos_right (by omega) hu
  have hhigh : 4 * m * unit < (4 * m + 2) * unit := Nat.mul_lt_mul_of_pos_right (by omega) hu
  split
  · simp [Nat.le_of_lt hlow, Nat.le_of_lt hhigh]
  · simp [hlow, hhigh]

theorem admits_interval {m x : Nat} {q : Int} (h : (interval m q).admits x = true) :
    (interval m q).low ≤ x ∧ x ≤ (interval m q).high ∧
      (m % 2 = 1 → (interval m q).low < x ∧ x < (interval m q).high) := by
  unfold Scaled.admits at h
  split at h
  · next hclosed =>
    have heven : m % 2 = 0 := by simpa [interval] using hclosed
    obtain ⟨hlow, hhigh⟩ : (interval m q).low ≤ x ∧ x ≤ (interval m q).high := by simpa using h
    exact ⟨hlow, hhigh, fun hodd => by omega⟩
  · obtain ⟨hlow, hhigh⟩ : (interval m q).low < x ∧ x < (interval m q).high := by simpa using h
    exact ⟨Nat.le_of_lt hlow, Nat.le_of_lt hhigh, fun _ => ⟨hlow, hhigh⟩⟩

/-- **The shortest decimal** is a point of the rounding interval. -/
theorem ofParts_represents {m : Nat} (hm : 0 < m) (q : Int) :
    (interval m q).Represents (ofParts m q) :=
  stripZeros_represents _ (search_represents (interval_admits hm q) _ _)

end Shortest

namespace FloatParts

variable {p : FloatParts}

theorem exponent_neg_of_hasFraction (h : p.hasFraction = true) : p.exponent < 0 := by
  by_contra hge
  have : (-p.exponent).toNat = 0 := by omega
  simp [hasFraction, denominator, this, Nat.mod_one] at h

theorem numerator_eq_of_neg (h : p.exponent < 0) : p.numerator = p.mantissa := by
  have : p.exponent.toNat = 0 := by omega
  simp [numerator, this]

theorem below_pos (p : FloatParts) : 0 < p.below := by
  unfold below
  split <;> omega

/-- A point of the rounding interval of a float below the integers, in fifths. -/
theorem point_of_represents {d : Decimal} {n : Nat} (hn : p.exponent = -(n : Int))
    (hd : (Shortest.interval p.mantissa p.exponent).Represents d) :
    ∃ zeros : Nat, d.exponent = (zeros : Int) - (n + 2) ∧
      (4 * p.mantissa - p.below) * 5 ^ (n + 2) ≤ d.digits * 10 ^ zeros ∧
      d.digits * 10 ^ zeros ≤ (4 * p.mantissa + 2) * 5 ^ (n + 2) ∧
      (p.mantissa % 2 = 1 →
        (4 * p.mantissa - p.below) * 5 ^ (n + 2) < d.digits * 10 ^ zeros ∧
          d.digits * 10 ^ zeros < (4 * p.mantissa + 2) * 5 ^ (n + 2)) := by
  obtain ⟨zeros, he, hadmits⟩ := hd
  have hplaces : (2 - p.exponent).toNat = n + 2 := by omega
  have hplaces' : (Shortest.interval p.mantissa p.exponent).places = n + 2 := hplaces
  have hunit : Nat.pow 2 (p.exponent - 2).toNat * Nat.pow 5 (2 - p.exponent).toNat =
      5 ^ (n + 2) := by
    have : (p.exponent - 2).toNat = 0 := by omega
    simp [hplaces, this]
  have hlow : (Shortest.interval p.mantissa p.exponent).low =
      (4 * p.mantissa - p.below) * 5 ^ (n + 2) := congrArg _ hunit
  have hhigh : (Shortest.interval p.mantissa p.exponent).high =
      (4 * p.mantissa + 2) * 5 ^ (n + 2) := congrArg _ hunit
  have h := Shortest.admits_interval hadmits
  rw [hlow, hhigh] at h
  exact ⟨zeros, by omega, h⟩

/-- The shortest decimal of a float that is not integral has digits behind the point. -/
theorem exponent_neg_of_represents {d : Decimal} (h : p.hasFraction = true)
    (hd : (Shortest.interval p.mantissa p.exponent).Represents d) : d.exponent < 0 := by
  have hneg := exponent_neg_of_hasFraction h
  obtain ⟨n, hn⟩ : ∃ n : Nat, p.exponent = -(n : Int) := ⟨(-p.exponent).toNat, by omega⟩
  have hfraction : p.mantissa % 2 ^ n ≠ 0 := by
    have hn' : (-p.exponent).toNat = n := by omega
    simpa [hasFraction, numerator_eq_of_neg hneg, denominator, hn'] using h
  obtain ⟨zeros, he, hlow, hhigh, -⟩ := point_of_represents hn hd
  by_contra hpos
  -- the point would be an integer, which only an integral float is near
  obtain ⟨k, rfl⟩ : ∃ k, zeros = k + (n + 2) := ⟨zeros - (n + 2), by omega⟩
  have hx : d.digits * 10 ^ (k + (n + 2)) =
      4 * (d.digits * 10 ^ k * 2 ^ n) * 5 ^ (n + 2) := by
    rw [show (10 : Nat) = 2 * 5 from rfl, Nat.mul_pow, Nat.mul_pow, pow_add, pow_add]
    ring
  rw [hx] at hlow hhigh
  have hu : 0 < 5 ^ (n + 2) := by positivity
  have h₁ := Nat.le_of_mul_le_mul_right hlow hu
  have h₂ := Nat.le_of_mul_le_mul_right hhigh hu
  have hbelow := p.below_le
  have hm : p.mantissa = d.digits * 10 ^ k * 2 ^ n := by omega
  exact hfraction (by rw [hm, Nat.mul_mod_left])

/-- A float that is not integral is near its shortest decimal. -/
theorem near_of_represents {d : Decimal} (hp : p.Canonical) (h : p.hasFraction = true)
    (hd : (Shortest.interval p.mantissa p.exponent).Represents d) :
    p.Near d.digits (-d.exponent).toNat := by
  have hneg := exponent_neg_of_hasFraction h
  have hdneg := exponent_neg_of_represents h hd
  have hge := hp.exponent_ge
  obtain ⟨n, hn⟩ : ∃ n : Nat, p.exponent = -(n : Int) := ⟨(-p.exponent).toNat, by omega⟩
  obtain ⟨zeros, he, hlow, hhigh, hodd⟩ := point_of_represents hn hd
  generalize hk : (-d.exponent).toNat = k
  have hzeros : zeros + k = n + 2 := by omega
  have hrank : n + 2 + p.rank = finest := by
    unfold rank finest
    omega
  have hu : 0 < 5 ^ (n + 2) := by positivity
  have hscale : 0 < 10 ^ k * 2 ^ p.rank := by positivity
  -- both sides, in fifths, are those of the point and multiplied by one factor
  have hpoint : d.digits * 2 ^ finest * 5 ^ (n + 2) =
      d.digits * 10 ^ zeros * (10 ^ k * 2 ^ p.rank) := by
    calc d.digits * 2 ^ finest * 5 ^ (n + 2)
        = d.digits * (2 * 5) ^ (n + 2) * 2 ^ p.rank := by
          rw [← hrank, pow_add, Nat.mul_pow]
          ring
      _ = d.digits * 10 ^ zeros * (10 ^ k * 2 ^ p.rank) := by
          rw [← hzeros, pow_add]
          ring
  have hend : ∀ a, a * 2 ^ p.rank * 10 ^ k * 5 ^ (n + 2) =
      a * 5 ^ (n + 2) * (10 ^ k * 2 ^ p.rank) := fun a => by ring
  refine ⟨?_, ?_, fun hm => ⟨?_, ?_⟩⟩
  · refine Nat.le_of_mul_le_mul_right (c := 5 ^ (n + 2)) ?_ hu
    rw [hpoint, hend]
    exact Nat.mul_le_mul_right _ hlow
  · refine Nat.le_of_mul_le_mul_right (c := 5 ^ (n + 2)) ?_ hu
    rw [hpoint, hend]
    exact Nat.mul_le_mul_right _ hhigh
  · refine Nat.lt_of_mul_lt_mul_right (a := 5 ^ (n + 2)) ?_
    rw [hpoint, hend]
    exact Nat.mul_lt_mul_of_pos_right (hodd hm).1 hscale
  · refine Nat.lt_of_mul_lt_mul_right (a := 5 ^ (n + 2)) ?_
    rw [hpoint, hend]
    exact Nat.mul_lt_mul_of_pos_right (hodd hm).2 hscale

theorem magnitude_of_integral (hp : p.Canonical) (h : p.hasFraction = false) :
    4 * p.mantissa * 2 ^ p.rank = p.numerator / p.denominator * 2 ^ finest := by
  have hge := hp.exponent_ge
  have hdvd : p.numerator / p.denominator * p.denominator = p.numerator :=
    Nat.div_mul_cancel (Nat.dvd_of_mod_eq_zero (by simpa [hasFraction] using h))
  generalize p.numerator / p.denominator = n at hdvd ⊢
  unfold numerator denominator rank at *
  simp only [Nat.pow_eq] at hdvd
  have hsum : (-p.exponent).toNat + (p.exponent + 1074).toNat + 2 = finest + p.exponent.toNat := by
    unfold finest
    omega
  refine Nat.eq_of_mul_eq_mul_right (show 0 < 2 ^ p.exponent.toNat by positivity) ?_
  calc 4 * p.mantissa * 2 ^ (p.exponent + 1074).toNat * 2 ^ p.exponent.toNat
      = p.mantissa * 2 ^ p.exponent.toNat * 2 ^ ((p.exponent + 1074).toNat + 2) := by ring
    _ = n * 2 ^ finest * 2 ^ p.exponent.toNat := by
      rw [← hdvd, Nat.mul_assoc, Nat.mul_assoc, ← pow_add, ← pow_add, ← Nat.add_assoc, hsum]

/-- An integral float is near its value. -/
theorem near_of_integral (hp : p.Canonical) (h : p.hasFraction = false) :
    p.Near (10 * (p.numerator / p.denominator)) 1 := by
  have hm := magnitude_of_integral hp h
  generalize p.numerator / p.denominator = n at hm
  have hbelow := p.below_pos
  have hpoint : 10 * n * 2 ^ finest = 4 * p.mantissa * 2 ^ p.rank * 10 ^ 1 := by
    rw [hm]
    ring
  have hle : ∀ {a b : Nat}, a ≤ b → a * 2 ^ p.rank * 10 ^ 1 ≤ b * 2 ^ p.rank * 10 ^ 1 :=
    fun hab => Nat.mul_le_mul_right _ (Nat.mul_le_mul_right _ hab)
  have hlt : ∀ {a b : Nat}, a < b → a * 2 ^ p.rank * 10 ^ 1 < b * 2 ^ p.rank * 10 ^ 1 :=
    fun hab => Nat.mul_lt_mul_of_pos_right (Nat.mul_lt_mul_of_pos_right hab (by positivity))
      (by positivity)
  refine ⟨?_, ?_, fun hodd => ⟨?_, ?_⟩⟩ <;> rw [hpoint]
  · exact hle (by omega)
  · exact hle (by omega)
  · exact hlt (by omega)
  · exact hlt (by omega)

end FloatParts

/-! ## Parts of a float -/

theorem FloatView.of_finite {x : Double} (h : x.isFinite = true) :
    ∃ p, FloatView.of x = .finite p ∧ p.Canonical ∧ p.negative = x.isNegative ∧
      x.magnitude = if p.mantissa < Double.exponentUnit then p.mantissa
        else (p.exponent + 1074).toNat * Double.exponentUnit + p.mantissa := by
  have hmag : x.magnitude < Double.infinity := of_decide_eq_true h
  have hnan : x.isNaN = false := decide_eq_false (Nat.not_lt.2 (Nat.le_of_lt hmag))
  have hinf : x.isInf = false := decide_eq_false (Nat.ne_of_lt hmag)
  unfold FloatView.of
  simp only [hnan, hinf, Bool.false_eq_true, if_false]
  simp only [Double.exponentUnit, Double.infinity] at *
  split
  · next hz =>
    refine ⟨_, rfl, ⟨?_, ?_, ?_⟩, rfl, ?_⟩ <;> dsimp only [Double.exponentUnit]
    · omega
    · omega
    · omega
    · rw [if_pos (by omega)]
      omega
  · next hz =>
    refine ⟨_, rfl, ⟨?_, ?_, ?_⟩, rfl, ?_⟩ <;> dsimp only [Double.exponentUnit]
    · omega
    · omega
    · omega
    · rw [if_neg (by omega)]
      omega

theorem Double.eq_of_magnitude {x y : Double} (hs : x.isNegative = y.isNegative)
    (hm : x.magnitude = y.magnitude) : x = y := by
  unfold isNegative at hs
  unfold magnitude at hm
  have hx := x.bits.toNat_lt
  have hy := y.bits.toNat_lt
  have hs' := decide_eq_decide.1 hs
  simp only [signUnit] at *
  have hbits : x.bits.toNat = y.bits.toNat := by omega
  cases x
  cases y
  exact congrArg _ (UInt64.toNat_inj.1 hbits)

/-! ## Texts of floats -/

namespace FloatText

/-- Digits, a point and as many digits as there are places, at least one. -/
structure Spelling (digits places : Nat) (whole fraction : List Char) : Prop where
  whole_ne_nil : whole ≠ []
  places_pos : 0 < places
  whole_digits : ∀ c ∈ whole, c.isDigit = true
  fraction_digits : ∀ c ∈ fraction, c.isDigit = true
  length : fraction.length = places
  value : Nat.ofDigitChars 10 (whole ++ fraction) 0 = digits

theorem toDigits_digits (n : Nat) : ∀ c ∈ Nat.toDigits 10 n, c.isDigit = true := fun _ hc =>
  Nat.isDigit_of_mem_toDigits (by decide) (by decide) hc

theorem positional_spelling {d : Decimal} (h : d.exponent < 0) :
    ∃ whole fraction, (positional d).toList = whole ++ '.' :: fraction ∧
      Spelling d.digits (-d.exponent).toNat whole fraction := by
  have hdigits := toDigits_digits d.digits
  unfold positional
  simp only
  rw [if_neg (by omega)]
  split
  · next hlt =>
    let places := (Nat.toDigits 10 d.digits).length - (-d.exponent).toNat
    refine ⟨(Nat.toDigits 10 d.digits).take places, (Nat.toDigits 10 d.digits).drop places,
      by simp [places], ?_, by omega, fun c hc => hdigits c (List.mem_of_mem_take hc),
      fun c hc => hdigits c (List.mem_of_mem_drop hc), ?_, ?_⟩
    · rw [Ne, List.take_eq_nil_iff]
      rintro (h' | h')
      · omega
      · exact Nat.toDigits_ne_nil h'
    · rw [List.length_drop]
      omega
    · rw [List.take_append_drop, Nat.ofDigitChars_ten_toDigits]
  · next hge =>
    let places := (-d.exponent).toNat - (Nat.toDigits 10 d.digits).length
    refine ⟨['0'], List.replicate places '0' ++ Nat.toDigits 10 d.digits, ?_, by simp, by omega,
      by simp, ?_, ?_, ?_⟩
    · simp [zeros, places]
    · intro c hc
      rcases List.mem_append.1 hc with hc | hc
      · rw [List.eq_of_mem_replicate hc]
        rfl
      · exact hdigits c hc
    · rw [List.length_append, List.length_replicate]
      omega
    · rw [List.singleton_append, Nat.ofDigitChars_cons, Nat.ofDigitChars_append,
        Nat.ofDigitChars_replicate_zero]
      simp [Nat.ofDigitChars_ten_toDigits]

theorem whole_spelling (n : Nat) : Spelling (10 * n) 1 (Nat.toDigits 10 n) ['0'] where
  whole_ne_nil := Nat.toDigits_ne_nil
  places_pos := Nat.one_pos
  whole_digits := toDigits_digits n
  fraction_digits := by simp
  length := rfl
  value := by
    rw [Nat.ofDigitChars_append, Nat.ofDigitChars_ten_toDigits, Nat.ofDigitChars_cons]
    simp

theorem not_point_of_digits {cs : List Char} (h : ∀ c ∈ cs, c.isDigit = true) : '.' ∉ cs :=
  fun hc => absurd (h _ hc) (by decide)

theorem Spelling.unique {digits places digits' places' : Nat}
    {whole fraction whole' fraction' : List Char} (h : Spelling digits places whole fraction)
    (h' : Spelling digits' places' whole' fraction')
    (he : whole ++ '.' :: fraction = whole' ++ '.' :: fraction') :
    digits = digits' ∧ places = places' := by
  obtain ⟨rfl, -, rfl⟩ := (List.append_cons_inj_of_notMem (not_point_of_digits h.whole_digits)
    (not_point_of_digits h.fraction_digits)).1 he
  exact ⟨h.value.symm.trans h'.value, h.length.symm.trans h'.length⟩

/-- **The text of a finite float**: its sign, and the digits of a decimal near it. -/
theorem literal_spelling {x : Double} (h : x.isFinite = true) :
    ∃ p whole fraction digits places, FloatView.of x = .finite p ∧ p.Canonical ∧
      p.Near digits places ∧ Spelling digits places whole fraction ∧
      (literal x).toList = (sign x.isNegative).toList ++ (whole ++ '.' :: fraction) := by
  obtain ⟨p, hp, hcanonical, hsign, -⟩ := FloatView.of_finite h
  unfold literal written
  rw [hp, ← hsign]
  cases hf : p.hasFraction with
  | true =>
    have hm : p.mantissa ≠ 0 := fun h0 => by
      simp [FloatParts.hasFraction, FloatParts.numerator, h0] at hf
    have hd := Shortest.ofParts_represents (Nat.pos_of_ne_zero hm) p.exponent
    obtain ⟨whole, fraction, htext, hspelling⟩ :=
      positional_spelling (FloatParts.exponent_neg_of_represents hf hd)
    refine ⟨p, whole, fraction, _, _, rfl, hcanonical,
      FloatParts.near_of_represents hcanonical hf hd, hspelling, ?_⟩
    simp [hf, plainParts, hm, htext]
  | false =>
    refine ⟨p, _, _, _, _, rfl, hcanonical, FloatParts.near_of_integral hcanonical hf,
      whole_spelling _, ?_⟩
    simp [hf, digitsOf]

/-- **Finite floats with one text** are equal. -/
theorem literal_inj {x y : Double} (hx : x.isFinite = true) (hy : y.isFinite = true)
    (h : literal x = literal y) : x = y := by
  obtain ⟨p, whole, fraction, digits, places, hp, hpc, hpn, hps, hxt⟩ := literal_spelling hx
  obtain ⟨q, whole', fraction', digits', places', hq, hqc, hqn, hqs, hyt⟩ := literal_spelling hy
  have htext := congrArg String.toList h
  rw [hxt, hyt] at htext
  -- the first digit is no sign
  have hfirst : ∀ {a b rest : List Char}, a ≠ [] → (∀ c ∈ a, c.isDigit = true) →
      '-' :: b ≠ a ++ rest := by
    intro a b rest ha hd he
    obtain ⟨c, cs, rfl⟩ := List.exists_cons_of_ne_nil ha
    obtain ⟨rfl, -⟩ := List.cons.inj he
    exact absurd (hd _ List.mem_cons_self) (by decide)
  have hboth : x.isNegative = y.isNegative ∧
      whole ++ '.' :: fraction = whole' ++ '.' :: fraction' := by
    cases hxs : x.isNegative <;> cases hys : y.isNegative <;> simp only [hxs, hys] at htext
    · exact ⟨rfl, htext⟩
    · exact (hfirst hps.whole_ne_nil hps.whole_digits htext.symm).elim
    · exact (hfirst hqs.whole_ne_nil hqs.whole_digits htext).elim
    · exact ⟨rfl, (List.cons.inj htext).2⟩
  obtain ⟨hsign, hbody⟩ := hboth
  obtain ⟨rfl, rfl⟩ := hps.unique hqs hbody
  obtain ⟨hm, he⟩ := FloatParts.near_unique hpc hqc hpn hqn
  obtain ⟨p', hp', -, -, hxm⟩ := FloatView.of_finite hx
  obtain ⟨q', hq', -, -, hym⟩ := FloatView.of_finite hy
  obtain rfl : p' = p := FloatView.finite.inj (hp'.symm.trans hp)
  obtain rfl : q' = q := FloatView.finite.inj (hq'.symm.trans hq)
  refine Double.eq_of_magnitude hsign ?_
  rw [hxm, hym, hm, he]

end FloatText

/-! ## Texts of words -/

/-- The text of an integer: its sign, and its digits. -/
theorem integer_toList (n : Int) :
    (toString n).toList = (if n < 0 then ['-'] else []) ++ Nat.toDigits 10 n.natAbs := by
  cases n with
  | ofNat n => simp [Int.toString_eq_repr, Int.repr]
  | negSucc n => simp [Int.toString_eq_repr, Int.repr, Int.negSucc_lt_zero]

/-- **Words with one text** are equal. -/
theorem integer_inj {m n : Int} (h : toString m = toString n) : m = n := by
  have htext := congrArg String.toList h
  rw [integer_toList, integer_toList] at htext
  have hdigits : ∀ a b : Nat, '-' :: Nat.toDigits 10 a ≠ Nat.toDigits 10 b := fun a b he => by
    have hminus := FloatText.toDigits_digits b '-' (he ▸ List.mem_cons_self)
    exact absurd hminus (by decide)
  have hinj : ∀ a b : Nat, Nat.toDigits 10 a = Nat.toDigits 10 b → a = b := fun a b he => by
    rw [← Nat.ofDigitChars_ten_toDigits (n := a), he, Nat.ofDigitChars_ten_toDigits]
  by_cases hm : m < 0 <;> by_cases hn : n < 0 <;>
    simp only [hm, hn, if_true, if_false, List.nil_append] at htext
  · have := hinj _ _ (List.cons.inj htext).2
    omega
  · exact (hdigits _ _ htext).elim
  · exact (hdigits _ _ htext.symm).elim
  · have := hinj _ _ htext
    omega

end StreamSql
