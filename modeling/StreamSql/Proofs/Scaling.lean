/-
  Products and quotients of floats.

  A product or a quotient of finite floats is the float that the exact result is nearest to, with
  the sign of the exact result.

  * `FloatParts.size`: the exact magnitude; `FloatParts.Nearest.size_le`: rounding keeps the order;
  * `FloatParts.number`: the float with these parts, and what arithmetic takes it for
    (`toFloat_number`, `ofFloat_pack_parted`);
  * `mul_number`, `div_number`: products and quotients by a positive float;
  * `toWord_number`: a float truncated.
-/
import Mathlib.Algebra.Order.Field.Power
import Mathlib.Algebra.Order.Floor.Semifield
import Mathlib.Data.Rat.Floor
import StreamSql.Proofs.Nearest

namespace StreamSql

open Float.Model Float.Model.UnpackedFloat

namespace FloatParts

variable {p q : FloatParts} {x y : ℚ}

/-! ## Magnitudes -/

/-- The exact magnitude. -/
def size (p : FloatParts) : ℚ := p.mantissa * 2 ^ p.exponent

theorem size_nonneg (p : FloatParts) : 0 ≤ p.size := by
  unfold size
  positivity

/-- The magnitude in units of the least exponent. -/
theorem size_scaled (he : -1074 ≤ p.exponent) :
    p.size * 2 ^ finest = ((4 * (p.mantissa * 2 ^ p.rank) : ℕ) : ℚ) := by
  rw [size, mul_assoc, two_zpow_exponent he]
  push_cast
  ring

theorem size_le_iff (hp : -1074 ≤ p.exponent) (hq : -1074 ≤ q.exponent) :
    p.size ≤ q.size ↔ p.mantissa * 2 ^ p.rank ≤ q.mantissa * 2 ^ q.rank := by
  have hscale : (0 : ℚ) < 2 ^ finest := by positivity
  rw [← mul_le_mul_iff_left₀ hscale, size_scaled hp, size_scaled hq, Nat.cast_le]
  omega

/-- A magnitude lies in its own rounding interval. -/
theorem Canonical.nearest (hp : p.Canonical) : p.Nearest p.size := by
  have hbelow : (0 : ℚ) < p.below := by exact_mod_cast p.below_pos
  have hrounds : p.Rounds p.mantissa :=
    ⟨by linarith, by linarith, fun _ => ⟨by linarith, by linarith⟩⟩
  exact hrounds.nearest hp.exponent_ge (Nat.cast_nonneg _)

/-- **Rounding keeps the order** of numbers. -/
theorem Nearest.size_le (hx : p.Nearest x) (hp : p.Canonical) (hy : q.Nearest y)
    (hq : q.Canonical) (h : x ≤ y) : p.size ≤ q.size := by
  rw [size_le_iff hp.exponent_ge hq.exponent_ge]
  by_contra hlt
  -- the interval of `p` begins where that of `q` ends, and so both contain `x = y`
  obtain ⟨hle, hend⟩ := interval_le hq hp (Nat.lt_of_not_le hlt)
  have hscale : x * 2 ^ finest ≤ y * 2 ^ finest := mul_le_mul_of_nonneg_right h (by positivity)
  have hle' : (((4 * q.mantissa + 2) * 2 ^ q.rank : ℕ) : ℚ) ≤
      ((4 * p.mantissa - p.below) * 2 ^ p.rank : ℕ) := Nat.cast_le.2 hle
  have heq : (4 * q.mantissa + 2) * 2 ^ q.rank = (4 * p.mantissa - p.below) * 2 ^ p.rank := by
    refine Nat.le_antisymm hle ((Nat.cast_le (α := ℚ)).1 ?_)
    linarith [hx.low, hy.high]
  rcases hend heq with hodd | hodd
  · linarith [(hy.odd hodd).2, hx.low]
  · linarith [(hx.odd hodd).1, hy.high]

/-- A number that is a float is rounded to itself. -/
theorem Nearest.size_eq (hx : p.Nearest q.size) (hp : p.Canonical) (hq : q.Canonical) :
    p.size = q.size :=
  le_antisymm (hx.size_le hp hq.nearest hq le_rfl) (hq.nearest.size_le hq hx hp le_rfl)

/-- The upper end of the rounding interval. -/
theorem Nearest.le_add (hx : p.Nearest x) (hp : p.Canonical) :
    x ≤ p.size + 2 ^ p.exponent / 2 := by
  have hscale : (0 : ℚ) < 2 ^ finest := by positivity
  have hunit := two_zpow_exponent hp.exponent_ge
  have hsize := size_scaled hp.exponent_ge
  have hhigh := hx.high
  push_cast at hhigh hsize
  refine le_of_mul_le_mul_right ?_ hscale
  linarith

/-- The lower end of the rounding interval. -/
theorem Nearest.sub_le (hx : p.Nearest x) (hp : p.Canonical) :
    p.size - p.below * 2 ^ p.exponent / 4 ≤ x := by
  have hscale : (0 : ℚ) < 2 ^ finest := by positivity
  have hsize := size_scaled hp.exponent_ge
  have hunit := congrArg (p.below * · : ℚ → ℚ) (two_zpow_exponent hp.exponent_ge)
  have hends : 4 * (p.mantissa * 2 ^ p.rank) ≤
      (4 * p.mantissa - p.below) * 2 ^ p.rank + p.below * 2 ^ p.rank := by
    rw [← Nat.add_mul, ← Nat.mul_assoc]
    exact Nat.mul_le_mul_right _ (by omega)
  have hends' := (Nat.cast_le (α := ℚ)).2 hends
  have hlow := hx.low
  push_cast at hends' hlow hsize
  refine le_of_mul_le_mul_right ?_ hscale
  linarith

/-- Rounding moves a number by half a unit at most. -/
theorem Nearest.abs_sub_le (hx : p.Nearest x) (hp : p.Canonical) :
    |x - p.size| ≤ 2 ^ p.exponent / 2 := by
  have hbelow : (p.below : ℚ) * 2 ^ p.exponent ≤ 2 * 2 ^ p.exponent :=
    mul_le_mul_of_nonneg_right (by exact_mod_cast p.below_le) (by positivity)
  rw [abs_le]
  constructor <;> linarith [hx.le_add hp, hx.sub_le hp]

/-! ## Floats with a sign -/

/-- The float with these parts. -/
def number (p : FloatParts) : Double := .ofMagnitude p.negative p.packed

/-- The parts as arithmetic has them. -/
def parted (p : FloatParts) : UnpackedFloat :=
  if p.negative then p.unpacked.neg else p.unpacked

/-- The parts are those of a finite float. -/
structure Finite (p : FloatParts) : Prop where
  canonical : p.Canonical
  exponent_le : p.exponent ≤ 971

end FloatParts

/-- A set sign is all that the negative of a number differs in. -/
theorem unpack_packComponents_negative (e : BitVec 11) (m : BitVec 52) :
    UnpackedFloat.unpack Format.binary64 (packComponents Format.binary64 .negative e m) =
      (UnpackedFloat.unpack Format.binary64
        (packComponents Format.binary64 .positive e m)).neg := by
  rw [unpack_packComponents, unpack_packComponents]
  by_cases h₁ : e = -1#11
  · rw [if_pos h₁, if_pos h₁]
    by_cases hm : m = 0#52
    · rw [if_pos hm, if_pos hm]
      rfl
    · rw [if_neg hm, if_neg hm]
      rfl
  · rw [if_neg h₁, if_neg h₁]
    by_cases h₂ : e = 0#11
    · rw [if_pos h₂, if_pos h₂]
      by_cases hm : m.toNat = 0
      · rw [dif_pos hm, dif_pos hm]
        rfl
      · rw [dif_neg hm, dif_neg hm]
        rfl
    · rw [if_neg h₂, if_neg h₂]
      rfl

namespace FloatParts

variable {p q : FloatParts} {x : ℚ}

/-- A finite float is read back from its bits. -/
theorem unpack_pack_parted (h : p.Finite) :
    UnpackedFloat.unpack Format.binary64 (UnpackedFloat.pack Format.binary64 p.parted) =
      p.parted := by
  obtain ⟨e, m, hpositive, hnegative⟩ := exists_components p
  have hback := unpack_pack h.canonical h.exponent_le
  unfold parted
  split
  · rw [hnegative, unpack_packComponents_negative, ← hpositive, hback]
  · exact hback

/-- The float that arithmetic has found. -/
theorem ofFloat_pack_parted (h : p.Finite) :
    Double.ofFloat (.ofModel (.pack p.parted)) = p.number := by
  unfold parted number
  cases hsign : p.negative with
  | false => exact ofFloat_pack h.canonical h.exponent_le
  | true =>
    have hmodel : Float.neg (.ofModel (.pack p.unpacked)) = .ofModel (.pack p.unpacked.neg) := by
      change Float.ofModel (.pack (UnpackedFloat.unpack Format.binary64
        (UnpackedFloat.pack Format.binary64 p.unpacked)).neg) = _
      rw [unpack_pack h.canonical h.exponent_le]
    exact (congrArg _ hmodel).symm.trans (ofFloat_neg_pack h.canonical h.exponent_le)

theorem magnitude_number (h : p.Finite) : p.number.magnitude = p.packed :=
  Double.magnitude_ofMagnitude ((packed_lt h.canonical h.exponent_le).trans (by decide))

theorem isNaN_number (h : p.Finite) : p.number.isNaN = false :=
  decide_eq_false (by
    rw [magnitude_number h]
    exact Nat.not_lt.2 (packed_lt h.canonical h.exponent_le).le)

/-- The bits of a finite float. -/
theorem bits_number (h : p.Finite) :
    p.number.bits.toBitVec = UnpackedFloat.pack Format.binary64 p.parted := by
  have hnumber := ofFloat_pack_parted h
  have hnan : (Float.ofModel (.pack p.parted)).isNaN = false := by
    refine Bool.eq_false_iff.2 fun hnan => ?_
    rw [Double.ofFloat, if_pos hnan] at hnumber
    have hnumber' := isNaN_number h
    rw [← hnumber] at hnumber'
    exact absurd hnumber' (by decide)
  rw [← hnumber, Double.ofFloat, if_neg (by rw [hnan]; exact Bool.false_ne_true)]
  rfl

/-- What arithmetic takes a float for. -/
theorem toFloat_number (h : p.Finite) : p.number.toFloat.toModel.unpack = p.parted := by
  change UnpackedFloat.unpack Format.binary64 (UnpackedFloat.pack Format.binary64
    (UnpackedFloat.unpack Format.binary64 p.number.bits.toBitVec)) = _
  rw [bits_number h, unpack_pack_parted h, unpack_pack_parted h]

end FloatParts

/-! ## Arithmetic -/

/-- A negative number is rounded as its magnitude is. -/
theorem roundWithAccuracy_negative (m : ℕ) (e : ℤ) (acc : Accuracy) :
    roundWithAccuracy Format.binary64 .negative m e acc =
      (roundWithAccuracy Format.binary64 .positive m e acc).neg := by
  obtain ⟨⟨em₁, e₁⟩, h₁⟩ : ∃ x, shiftToTargetExponent Format.binary64 m e acc = x := ⟨_, rfl⟩
  obtain ⟨⟨em₂, e₂⟩, h₂⟩ : ∃ x,
      shiftToTargetExponent Format.binary64 em₁.roundedMantissa e₁ .exact = x := ⟨_, rfl⟩
  rw [roundWithAccuracy_shifted .negative h₁ h₂, roundWithAccuracy_shifted .positive h₁ h₂]
  by_cases h : em₂.mantissa = 0
  · rw [dif_pos h, dif_pos h]
    rfl
  · rw [dif_neg h, dif_neg h]
    rfl

section
variable {p q : FloatParts} {m : ℕ} {e : ℤ}

theorem mul_neg_unpacked (hm : 0 < m) :
    UnpackedFloat.mul Format.binary64 p.unpacked.neg (.finite .positive m e hm) =
      (UnpackedFloat.mul Format.binary64 p.unpacked (.finite .positive m e hm)).neg := by
  by_cases h : p.mantissa = 0
  · rw [FloatParts.unpacked_of_eq_zero h]
    rfl
  · rw [FloatParts.unpacked_of_ne_zero h]
    exact roundWithAccuracy_negative _ _ _

theorem div_neg_unpacked (hm : 0 < m) :
    UnpackedFloat.div Format.binary64 p.unpacked.neg (.finite .positive m e hm) =
      (UnpackedFloat.div Format.binary64 p.unpacked (.finite .positive m e hm)).neg := by
  by_cases h : p.mantissa = 0
  · rw [FloatParts.unpacked_of_eq_zero h]
    rfl
  · rw [FloatParts.unpacked_of_ne_zero h]
    exact roundWithAccuracy_negative _ _ _

/-- Zero has its parts. -/
theorem zero_parts : ∃ r : FloatParts, UnpackedFloat.zero .positive = r.unpacked ∧ r.Canonical ∧
    r.Nearest 0 := by
  have hcanonical : FloatParts.Canonical ⟨false, 0, -1074⟩ := ⟨by decide, by decide, Or.inr rfl⟩
  refine ⟨_, rfl, hcanonical, ?_⟩
  have hnearest := hcanonical.nearest
  rwa [FloatParts.size, Nat.cast_zero, zero_mul] at hnearest

/-- The product of two magnitudes, one of which has all its digits. -/
theorem mul_nearest (hm : 2 ^ 52 ≤ m) (hpos : 0 < m) :
    ∃ r : FloatParts,
      UnpackedFloat.mul Format.binary64 p.unpacked (.finite .positive m e hpos) = r.unpacked ∧
      r.Canonical ∧ r.Nearest (p.size * (m * 2 ^ e)) := by
  by_cases hzero : p.mantissa = 0
  · obtain ⟨r, hr, hcanonical, hnearest⟩ := zero_parts
    refine ⟨r, ?_, hcanonical, ?_⟩
    · rw [FloatParts.unpacked_of_eq_zero hzero, ← hr]
      rfl
    · rwa [FloatParts.size, hzero, Nat.cast_zero, zero_mul, zero_mul]
  · have hexact : Approximates (.ofMantissaAndAccuracy (p.mantissa * m) .exact)
        (p.mantissa * m : ℕ) := by
      simp [Approximates, cut, ExtendedMantissa.ofMantissaAndAccuracy]
    have hdigits : 2 ^ 52 ≤ p.mantissa * m :=
      hm.trans (Nat.le_mul_of_pos_left _ (Nat.pos_of_ne_zero hzero))
    obtain ⟨r, hr, -, hcanonical, hrounds⟩ :=
      roundWithAccuracy_rounds (e := p.exponent + e) hexact (Or.inr hdigits)
    refine ⟨r, ?_, hcanonical, ?_⟩
    · rw [FloatParts.unpacked_of_ne_zero hzero, ← hr]
      rfl
    · have hnearest := hrounds.nearest hcanonical.exponent_ge (by positivity)
      rw [mul_assoc, ← zpow_add₀ two_ne_zero, sub_add_cancel, zpow_add₀ two_ne_zero,
        Nat.cast_mul, mul_mul_mul_comm] at hnearest
      exact hnearest

/-- The quotient of two magnitudes. -/
theorem div_nearest (hpos : 0 < m) :
    ∃ r : FloatParts,
      UnpackedFloat.div Format.binary64 p.unpacked (.finite .positive m e hpos) = r.unpacked ∧
      r.Canonical ∧ r.Nearest (p.size / (m * 2 ^ e)) := by
  by_cases hzero : p.mantissa = 0
  · obtain ⟨r, hr, hcanonical, hnearest⟩ := zero_parts
    refine ⟨r, ?_, hcanonical, ?_⟩
    · rw [FloatParts.unpacked_of_eq_zero hzero, ← hr]
      rfl
    · rwa [FloatParts.size, hzero, Nat.cast_zero, zero_mul, zero_div]
  · obtain ⟨r, x, hr, -, hcanonical, hrounds, hx⟩ :=
      div_rounds p.exponent e (Nat.pos_of_ne_zero hzero) hpos
    refine ⟨r, ?_, hcanonical, ?_⟩
    · rw [FloatParts.unpacked_of_ne_zero hzero, ← hr]
    · have hscale : (0 : ℚ) < 2 ^ r.exponent := zpow_pos two_pos _
      have hnonneg : 0 ≤ x * 2 ^ r.exponent := by
        rw [hx]
        positivity
      rw [FloatParts.size, ← hx]
      exact hrounds.nearest hcanonical.exponent_ge
        ((mul_nonneg_iff_of_pos_right hscale).1 hnonneg)

end

namespace FloatParts

variable {p q r : FloatParts} {x : ℚ}

/-- A magnitude below a power of two has its exponent. -/
theorem Canonical.exponent_le_of_size_lt (hp : p.Canonical) {k : ℤ} (hk : -1074 ≤ k)
    (h : p.size < 2 ^ (53 + k)) : p.exponent ≤ k := by
  by_contra hlt
  have hnormal : (2 : ℚ) ^ 52 ≤ p.mantissa := by
    exact_mod_cast hp.normal.resolve_right (by omega)
  refine absurd h (not_lt.2 ?_)
  calc (2 : ℚ) ^ (53 + k) = 2 ^ 52 * 2 ^ (k + 1) := by
        rw [← zpow_natCast, ← zpow_add₀ two_ne_zero]
        congr 1
        omega
    _ ≤ p.mantissa * 2 ^ p.exponent :=
        mul_le_mul hnormal (zpow_le_zpow_right₀ one_le_two (by omega)) (by positivity)
          (by positivity)

/-- A number of moderate size is rounded to a finite float. -/
theorem Nearest.finite (hx : p.Nearest x) (hp : p.Canonical) (h : x ≤ 2 ^ 100) : p.Finite := by
  have hbound : FloatParts.Canonical ⟨false, 2 ^ 52, 48⟩ :=
    ⟨by decide, by decide, Or.inl (by decide)⟩
  have hsize : FloatParts.size ⟨false, 2 ^ 52, 48⟩ = 2 ^ 100 := by
    norm_num [size]
  have hle := hx.size_le hp hbound.nearest hbound (hsize ▸ h)
  rw [hsize] at hle
  refine ⟨hp, hp.exponent_le_of_size_lt (by decide) (hle.trans_lt ?_)⟩
  rw [← zpow_natCast]
  exact zpow_lt_zpow_right₀ one_lt_two (by decide)

/-- The magnitude with the sign of another one. -/
def withSignOf (r p : FloatParts) : FloatParts := { r with negative := p.negative }

theorem Canonical.withSignOf (hr : r.Canonical) (p : FloatParts) : (r.withSignOf p).Canonical :=
  ⟨hr.mantissa_lt, hr.exponent_ge, hr.normal⟩

theorem Nearest.withSignOf (hx : r.Nearest x) (p : FloatParts) : (r.withSignOf p).Nearest x :=
  ⟨hx.low, hx.high, hx.odd⟩

/-- An operation that keeps the sign of its first operand: the float that the result for the
    magnitudes is nearest to. -/
theorem apply₂_number {op : Float → Float → Float}
    {op' : UnpackedFloat → UnpackedFloat → UnpackedFloat}
    (hop : ∀ a b, op a b = .ofModel (.pack (op' a.toModel.unpack b.toModel.unpack)))
    (hp : p.Finite) (hq : q.Finite)
    (hneg : op' p.unpacked.neg q.parted = (op' p.unpacked q.parted).neg)
    (hr : op' p.unpacked q.parted = r.unpacked) (hcanonical : r.Canonical) (hx : r.Nearest x)
    (hbound : x ≤ 2 ^ 100) :
    ∃ r : FloatParts, Double.apply₂ op p.number q.number = r.number ∧ r.Finite ∧
      r.negative = p.negative ∧ r.Nearest x := by
  have hfinite : (r.withSignOf p).Finite :=
    (hx.withSignOf p).finite (hcanonical.withSignOf p) hbound
  refine ⟨r.withSignOf p, ?_, hfinite, rfl, hx.withSignOf p⟩
  have hparted : op' p.parted q.parted = (r.withSignOf p).parted := by
    change _ = if p.negative then r.unpacked.neg else r.unpacked
    rw [parted]
    split
    · rw [hneg, hr]
    · exact hr
  rw [Double.apply₂, isNaN_number hp, isNaN_number hq, hop, toFloat_number hp, toFloat_number hq,
    hparted]
  exact ofFloat_pack_parted hfinite

/-- A positive float as arithmetic has it. -/
theorem parted_positive (hs : q.negative = false) (hm : 0 < q.mantissa) :
    q.parted = .finite .positive q.mantissa q.exponent hm := by
  rw [parted, hs, unpacked, dif_neg hm.ne']
  rfl

/-- **Products**: multiplied by a positive float with all its digits, a float becomes the one that
    the exact product is nearest to. -/
theorem mul_number (hp : p.Finite) (hq : q.Finite) (hs : q.negative = false)
    (hdigits : 2 ^ 52 ≤ q.mantissa) (hbound : p.size * q.size ≤ 2 ^ 100) :
    ∃ r : FloatParts, p.number * q.number = r.number ∧ r.Finite ∧ r.negative = p.negative ∧
      r.Nearest (p.size * q.size) := by
  have hparted := parted_positive hs (by omega)
  obtain ⟨r, hr, hcanonical, hnearest⟩ := mul_nearest (p := p) (e := q.exponent) hdigits (by omega)
  refine apply₂_number (fun _ _ => rfl) hp hq ?_ (?_ : UnpackedFloat.mul Format.binary64 _ _ = _)
    hcanonical hnearest hbound
  · rw [hparted]
    exact mul_neg_unpacked _
  · rw [hparted, hr]

/-- **Quotients**: divided by a positive float, a float becomes the one that the exact quotient is
    nearest to. -/
theorem div_number (hp : p.Finite) (hq : q.Finite) (hs : q.negative = false)
    (hpos : 0 < q.mantissa) (hbound : p.size / q.size ≤ 2 ^ 100) :
    ∃ r : FloatParts, p.number / q.number = r.number ∧ r.Finite ∧ r.negative = p.negative ∧
      r.Nearest (p.size / q.size) := by
  have hparted := parted_positive hs hpos
  obtain ⟨r, hr, hcanonical, hnearest⟩ := div_nearest (p := p) (e := q.exponent) hpos
  refine apply₂_number (fun _ _ => rfl) hp hq ?_ (?_ : UnpackedFloat.div Format.binary64 _ _ = _)
    hcanonical hnearest hbound
  · rw [hparted]
    exact div_neg_unpacked _
  · rw [hparted, hr]

/-! ## Truncation -/

/-- The bits tell the magnitude. -/
theorem eq_of_packed (hp : p.Canonical) (hq : q.Canonical) (h : p.packed = q.packed) :
    p.mantissa = q.mantissa ∧ p.exponent = q.exponent := by
  rcases Nat.lt_trichotomy (p.mantissa * 2 ^ p.rank) (q.mantissa * 2 ^ q.rank) with hlt | heq | hgt
  · exact absurd h (packed_lt_of_lt hp hq hlt).ne
  · exact eq_of_magnitude hp hq heq
  · exact absurd h (packed_lt_of_lt hq hp hgt).ne'

/-- What a finite float stands for. -/
theorem view_number (h : p.Finite) : FloatView.of p.number = .finite p := by
  have hlt := packed_lt h.canonical h.exponent_le
  have hmagnitude := magnitude_number h
  have hsign : p.number.isNegative = p.negative :=
    Double.isNegative_ofMagnitude (hlt.trans (by decide))
  obtain ⟨q, hview, hq, hnegative, hpacked⟩ :=
    FloatView.of_finite (x := p.number) (decide_eq_true (by rwa [hmagnitude]))
  obtain ⟨hm, he⟩ := eq_of_packed hq h.canonical (hpacked.symm.trans hmagnitude)
  rw [hview]
  obtain ⟨_, _, _⟩ := p
  obtain ⟨_, _, _⟩ := q
  obtain rfl := hm
  obtain rfl := he
  obtain rfl := hnegative.trans hsign
  rfl

/-- The magnitude as a quotient of natural numbers. -/
theorem size_eq_div (p : FloatParts) : p.size = (p.numerator : ℚ) / p.denominator := by
  obtain ⟨e, he | he⟩ := p.exponent.eq_nat_or_neg
  · have hdenominator : p.denominator = 1 := by simp [denominator, he]
    have hnumerator : p.numerator = p.mantissa * 2 ^ e := by simp [numerator, he]
    rw [hdenominator, hnumerator, size, he, zpow_natCast]
    push_cast
    rw [div_one]
  · have hdenominator : p.denominator = 2 ^ e := by simp [denominator, he]
    have hnumerator : p.numerator = p.mantissa := by simp [numerator, he]
    rw [hdenominator, hnumerator, size, he, zpow_neg, zpow_natCast, ← div_eq_mul_inv]
    push_cast
    rfl

/-- The integer toward zero. -/
theorem truncated_eq (p : FloatParts) : p.truncated = p.signed ⌊p.size⌋₊ := by
  rw [size_eq_div, Nat.floor_div_eq_div]
  rfl

/-- A finite float as a word: truncated, and saturating. -/
theorem toWord_number (h : p.Finite) : toWord p.number = Word.nearest (p.signed ⌊p.size⌋₊) := by
  rw [toWord, view_number h, ← truncated_eq]

end FloatParts

/-- **A word** as a float: the one that its magnitude is nearest to, with its sign. -/
theorem Double.ofWord_number (w : Int64) : ∃ p : FloatParts, ofWord w = p.number ∧ p.Finite ∧
    p.negative = decide (w.toInt < 0) ∧ p.Nearest w.toInt.natAbs := by
  obtain ⟨p, hw⟩ := ofWord_parts w
  have hnearest := FloatParts.near_iff.1 hw.near
  rw [pow_zero, div_one] at hnearest
  exact ⟨⟨decide (w.toInt < 0), p.mantissa, p.exponent⟩, hw.eq,
    ⟨⟨hw.canonical.mantissa_lt, hw.canonical.exponent_ge, hw.canonical.normal⟩, hw.exponent_le⟩,
    rfl, hnearest.low, hnearest.high, hnearest.odd⟩

end StreamSql
