/-
  Integers as floats.

  An integer is turned into the float that it is near.  This keeps the order of integers, but it
  does not keep integers apart that are near one float: one of them is beyond `2^53` then, and if
  they are words, they differ by 1024 at most.

  * `ofNat_near`, `Double.ofWord_parts`: the float of a natural number, and of a word;
  * `FloatParts.Near.lt_or_eq`: the nearest floats of integers are in the order of the integers;
  * `FloatParts.Near.spread`, `Double.ofWord_eq`: integers with one float;
  * `Double.compare?_ofWord`: words are compared as floats.
-/
import StreamSql.Proofs.Packing

namespace StreamSql

open Float.Model Float.Model.UnpackedFloat

/-! ## Natural numbers -/

/-- A number with enough binary digits is rounded to the float that it is near. -/
theorem round_near {n m : ℕ} {e : ℤ} (hm : 2 ^ 52 ≤ m) (hn : (m : ℚ) * 2 ^ e = n) :
    ∃ p : FloatParts, roundWithAccuracy Format.binary64 .positive m e .exact = p.unpacked ∧
      p.Canonical ∧ p.Near n 0 := by
  have hexact : Approximates (.ofMantissaAndAccuracy m .exact) m := by
    simp [Approximates, cut, ExtendedMantissa.ofMantissaAndAccuracy]
  obtain ⟨p, hround, -, hcanonical, hrounds⟩ := roundWithAccuracy_rounds hexact (Or.inr hm)
  refine ⟨p, hround, hcanonical, hrounds.near hcanonical.exponent_ge ?_⟩
  rw [mul_assoc, ← zpow_add₀ two_ne_zero, sub_add_cancel, hn, pow_zero, div_one]

/-- A float that is a positive integer has all its digits. -/
theorem FloatParts.Canonical.digits {q : FloatParts} (h : q.Canonical) {n : ℕ} (hn : 0 < n)
    (hv : (q.mantissa : ℚ) * 2 ^ q.exponent = n) : 2 ^ 52 ≤ q.mantissa := by
  refine h.normal.resolve_right fun he => ?_
  obtain ⟨k, hk, hk'⟩ : ∃ k : ℕ, 53 ≤ k ∧ q.exponent = -k := ⟨1074, by decide, he⟩
  have hmantissa : q.mantissa = n * 2 ^ k := by
    rw [hk', zpow_neg, zpow_natCast] at hv
    exact_mod_cast (mul_inv_eq_iff_eq_mul₀ (pow_ne_zero _ two_ne_zero)).1 hv
  have hlarge : 2 ^ 53 ≤ q.mantissa :=
    calc 2 ^ 53 ≤ 2 ^ k := Nat.pow_le_pow_right two_pos hk
      _ ≤ n * 2 ^ k := Nat.le_mul_of_pos_left _ hn
      _ = q.mantissa := hmantissa.symm
  exact absurd h.mantissa_lt (Nat.not_lt.2 hlarge)

/-- A number that is a float is multiplied by one. -/
theorem mul_one_near {n : ℕ} (hn : 0 < n) (hlt : n < 2 ^ 53) :
    ∃ p : FloatParts, n.toUInt64.toFloat * Float.exactlyRepresentablePowersOfTen[0] =
      .ofModel (.pack p.unpacked) ∧ p.Canonical ∧ p.Near n 0 := by
  obtain ⟨q, hq, hcanonical, hqm, hqv⟩ := toFloat_unpacked hn hlt
  rw [FloatParts.unpacked_of_ne_zero hqm.ne'] at hq
  obtain ⟨m, e, hm, hone, hv⟩ := of_units? (units?_powerOfTen ⟨0, by decide⟩)
  have hone' : (Float.exactlyRepresentablePowersOfTen[0]).toModel.unpack =
      .finite .positive m e hm := hone
  have hvalue : ((q.mantissa * m : ℕ) : ℚ) * 2 ^ (q.exponent + e) = n := by
    rw [zpow_add₀ two_ne_zero, Nat.cast_mul, mul_mul_mul_comm, hqv, hv]
    simp
  have hdigits : 2 ^ 52 ≤ q.mantissa * m :=
    (hcanonical.digits hn hqv).trans (Nat.le_mul_of_pos_right _ hm)
  obtain ⟨p, hround, hp⟩ := round_near hdigits hvalue
  refine ⟨p, ?_, hp⟩
  change Float.ofModel (.pack (UnpackedFloat.mul Format.binary64 n.toUInt64.toFloat.toModel.unpack
    (Float.exactlyRepresentablePowersOfTen[0]).toModel.unpack)) = _
  rw [hq, hone', ← hround]
  rfl

/-- **A natural number** is turned into the float that it is near. -/
theorem ofNat_near {n : ℕ} (hn : 0 < n) :
    ∃ p : FloatParts, Float.ofNat n = .ofModel (.pack p.unpacked) ∧ p.Canonical ∧
      p.Near n 0 := by
  change ∃ p : FloatParts, Float.ofScientific n false 0 = _ ∧ _
  unfold Float.ofScientific
  split
  · next hsmall => exact mul_one_near hn hsmall.1
  · have hfar : ¬ Int.ofNat 0 < -((2 ^ 11 : ℤ) + n.log2) := by
      change ¬ (0 : ℤ) < _
      omega
    -- the number is multiplied by one after its mantissa has been made long enough
    have hdigits : 2 ^ 52 ≤ n <<< 53 * 10 ^ 0 := by
      rw [Nat.shiftLeft_eq, pow_zero, mul_one]
      exact (Nat.pow_le_pow_right two_pos (by decide)).trans (Nat.le_mul_of_pos_left _ hn)
    have hvalue : ((n <<< 53 * 10 ^ 0 : ℕ) : ℚ) * 2 ^ (-53 + 0 : ℤ) = n := by
      rw [Nat.shiftLeft_eq, pow_zero, mul_one, add_zero, Nat.cast_mul, Nat.cast_pow,
        Nat.cast_ofNat, show (-53 : ℤ) = -(53 : ℕ) from rfl, zpow_neg, zpow_natCast]
      exact mul_inv_cancel_right₀ (pow_ne_zero _ two_ne_zero) _
    obtain ⟨p, hround, hp⟩ := round_near hdigits hvalue
    refine ⟨p, ?_, hp⟩
    rw [← hround]
    exact congrArg (fun f => Float.ofModel (.pack f)) ((dif_neg hn.ne').trans
      ((if_neg (by decide)).trans ((if_neg hfar).trans (if_pos (by decide)))))

/-! ## The order of the nearest floats -/

namespace FloatParts

variable {p q : FloatParts} {m n : ℕ}

/-- A magnitude with a greater exponent than the least one has all its digits. -/
theorem Canonical.normal_of_rank (hp : p.Canonical) (h : 0 < p.rank) : 2 ^ 52 ≤ p.mantissa := by
  refine hp.normal.resolve_right fun he => ?_
  rw [rank, he] at h
  exact absurd h (by decide)

theorem Canonical.packed_eq (hp : p.Canonical) : p.packed = p.rank * 2 ^ 52 + p.mantissa := by
  unfold packed
  split
  · next hlt =>
    have hrank : p.rank = 0 :=
      Nat.eq_zero_of_not_pos fun h => Nat.not_lt.2 (hp.normal_of_rank h) hlt
    rw [hrank, Nat.zero_mul, Nat.zero_add]
  · rfl

/-- A greater magnitude has greater bits. -/
theorem packed_lt_of_lt (hp : p.Canonical) (hq : q.Canonical)
    (h : p.mantissa * 2 ^ p.rank < q.mantissa * 2 ^ q.rank) : p.packed < q.packed := by
  have hmantissa := hp.mantissa_lt
  have hmantissa' := hq.mantissa_lt
  simp only [Double.exponentUnit] at hmantissa hmantissa'
  rw [hp.packed_eq, hq.packed_eq]
  rcases Nat.lt_trichotomy p.rank q.rank with hlt | heq | hgt
  · have hnormal := hq.normal_of_rank (Nat.zero_lt_of_lt hlt)
    omega
  · rw [heq] at h ⊢
    have hlt := Nat.lt_of_mul_lt_mul_right h
    omega
  · -- with all its digits and a greater exponent, the smaller magnitude would be the greater one
    have hnormal := hp.normal_of_rank (Nat.zero_lt_of_lt hgt)
    have hle : q.mantissa * 2 ^ q.rank ≤ p.mantissa * 2 ^ p.rank :=
      calc q.mantissa * 2 ^ q.rank ≤ (p.mantissa * 2) * 2 ^ q.rank :=
            Nat.mul_le_mul_right _ (by omega)
        _ = p.mantissa * 2 ^ (q.rank + 1) := by rw [Nat.mul_assoc, Nat.pow_succ']
        _ ≤ p.mantissa * 2 ^ p.rank :=
            Nat.mul_le_mul_left _ (Nat.pow_le_pow_right two_pos hgt)
    exact absurd h (Nat.not_lt.2 hle)

/-- **Rounding keeps the order**: of two integers, the greater one has the greater bits or the
    same float. -/
theorem Near.lt_or_eq (hp : p.Canonical) (hq : q.Canonical) (hm : p.Near m 0) (hn : q.Near n 0)
    (h : m ≤ n) :
    p.packed < q.packed ∨ p.mantissa = q.mantissa ∧ p.exponent = q.exponent := by
  rcases Nat.lt_trichotomy (p.mantissa * 2 ^ p.rank) (q.mantissa * 2 ^ q.rank) with hlt | heq | hgt
  · exact Or.inl (packed_lt_of_lt hp hq hlt)
  · exact Or.inr (eq_of_magnitude hp hq heq)
  · -- the interval of `q` ends where that of `p` begins, and so both contain `m = n`
    have hle : n * 2 ^ finest ≤ m * 2 ^ finest :=
      calc n * 2 ^ finest ≤ (4 * q.mantissa + 2) * 2 ^ q.rank * 10 ^ 0 := hn.high
        _ ≤ (4 * p.mantissa - p.below) * 2 ^ p.rank * 10 ^ 0 :=
            Nat.mul_le_mul_right _ (interval_le hq hp hgt).1
        _ ≤ m * 2 ^ finest := hm.low
    obtain rfl : m = n := Nat.le_antisymm h (Nat.le_of_mul_le_mul_right hle (by positivity))
    exact Or.inr (near_unique hp hq hm hn)

/-- Only zero has a mantissa that is zero. -/
theorem Near.mantissa_pos (h : p.Near n 0) (hp : p.Canonical) (hn : 0 < n) : 0 < p.mantissa := by
  refine Nat.pos_of_ne_zero fun h0 => ?_
  have hrank : p.rank = 0 := Nat.eq_zero_of_not_pos fun hr => by
    have hnormal := hp.normal_of_rank hr
    omega
  have hhigh := h.high
  rw [h0, hrank] at hhigh
  have htwo : 2 ≤ finest := by decide
  have hfinest : finest < 2 ^ finest := Nat.lt_two_pow_self
  have hlarge : 2 ^ finest ≤ n * 2 ^ finest := Nat.le_mul_of_pos_left _ hn
  omega

/-! ## Integers that are near one float -/

/-- Whether a decimal is near a float does not depend on the sign. -/
theorem Near.congr (h : p.Near m n) (hm : p.mantissa = q.mantissa)
    (he : p.exponent = q.exponent) : q.Near m n := by
  obtain ⟨_, mantissa, exponent⟩ := p
  obtain ⟨_, _, _⟩ := q
  obtain rfl : mantissa = _ := hm
  obtain rfl : exponent = _ := he
  exact ⟨h.low, h.high, h.odd⟩

/-- The integers up to `2^53` are floats. -/
theorem exists_exact (hn : n ≤ 2 ^ 53) :
    ∃ q : FloatParts, q.Canonical ∧ (q.mantissa : ℚ) * 2 ^ q.exponent = n := by
  rcases Nat.eq_zero_or_pos n with rfl | hpos
  · exact ⟨⟨false, 0, -1074⟩, ⟨by decide, by decide, Or.inr rfl⟩, by simp⟩
  · rcases hn.lt_or_eq with hlt | rfl
    · obtain ⟨q, -, hq, -, -, hv⟩ := ofNat_unpacked hpos hlt
      exact ⟨q, hq, hv⟩
    · refine ⟨⟨false, 2 ^ 52, 1⟩, ⟨by decide, by decide, Or.inl (by decide)⟩, ?_⟩
      norm_num

/-- An integer is near the float that has this value. -/
theorem Canonical.near (hp : p.Canonical) (hv : (p.mantissa : ℚ) * 2 ^ p.exponent = n) :
    p.Near n 0 := by
  have hbelow : (0 : ℚ) < p.below := by exact_mod_cast p.below_pos
  have hrounds : p.Rounds p.mantissa :=
    ⟨by linarith, by linarith, fun _ => ⟨by linarith, by linarith⟩⟩
  exact hrounds.near hp.exponent_ge (by rw [hv, pow_zero, div_one])

/-- The float of a small integer has this value. -/
theorem Near.exact (h : p.Near n 0) (hp : p.Canonical) (hn : n ≤ 2 ^ 53) :
    (p.mantissa : ℚ) * 2 ^ p.exponent = n := by
  obtain ⟨q, hq, hqn⟩ := exists_exact hn
  obtain ⟨hmantissa, hexponent⟩ := near_unique hp hq h (hq.near hqn)
  rw [hmantissa, hexponent, hqn]

/-- The float of an integer up to `2^63` has an exponent less than that of `2^63`, or is `2^63`. -/
theorem Near.rank_le (h : p.Near n 0) (hp : p.Canonical) (hn : n ≤ 2 ^ 63) :
    p.rank ≤ finest + 8 ∨ p.rank = finest + 9 ∧ p.mantissa = 2 ^ 52 := by
  have hbelow := p.below_le
  have hn' := h.low.trans (Nat.mul_le_mul_right _ hn)
  generalize finest = f at *
  rcases Nat.lt_or_ge p.rank (f + 9) with hlt | hge
  · exact Or.inl (Nat.le_of_lt_succ hlt)
  · obtain ⟨k, hk⟩ := Nat.exists_eq_add_of_le hge
    have hnormal := hp.normal_of_rank (by omega)
    have hlow : (4 * p.mantissa - p.below) * 2 ^ k * 2 ^ 9 ≤ 2 ^ 63 := by
      refine Nat.le_of_mul_le_mul_right (Nat.le_trans (Nat.le_of_eq ?_) hn')
        (Nat.two_pow_pos f)
      rw [hk, pow_add, pow_add]
      ring
    have hzero : k = 0 := by
      refine Nat.eq_zero_of_not_pos fun hpos => ?_
      have htwo : (4 * p.mantissa - p.below) * 2 ≤ (4 * p.mantissa - p.below) * 2 ^ k :=
        Nat.mul_le_mul_left _ (Nat.le_self_pow hpos.ne' 2)
      omega
    rw [hzero, pow_zero, Nat.mul_one] at hlow
    exact Or.inr ⟨by omega, by omega⟩

/-- Integers up to `2^63` that are near one float differ by 1024 at most. -/
theorem Near.spread (hm : p.Near m 0) (hp : p.Canonical) (hn : p.Near n 0) (h : n ≤ 2 ^ 63) :
    n ≤ m + 1024 := by
  have hbelow := p.below_le
  have hlow := hm.low
  have hhigh := hn.high
  have hrank := hn.rank_le hp h
  rw [pow_zero, Nat.mul_one] at hlow hhigh
  generalize finest = f at *
  rcases hrank with hrank | ⟨hrank, hmantissa⟩
  · -- the interval has four quarters of a unit
    have hunit : 2 ^ p.rank ≤ 2 ^ 8 * 2 ^ f := by
      rw [← pow_add, Nat.add_comm]
      exact Nat.pow_le_pow_right two_pos hrank
    have hends : (4 * p.mantissa + 2) * 2 ^ p.rank ≤
        (4 * p.mantissa - p.below) * 2 ^ p.rank + 4 * 2 ^ p.rank := by
      rw [← Nat.add_mul]
      exact Nat.mul_le_mul_right _ (by omega)
    have hle : n * 2 ^ f ≤ (m + 1024) * 2 ^ f := by
      rw [Nat.add_mul]
      omega
    exact Nat.le_of_mul_le_mul_right hle (by positivity)
  · -- the interval of `2^63` begins 1024 below it, or less
    have hle : (4 * 2 ^ 52 - p.below) * 2 ^ 9 * 2 ^ f ≤ m * 2 ^ f := by
      rw [hrank, hmantissa, pow_add, Nat.mul_comm (2 ^ f), ← Nat.mul_assoc] at hlow
      exact hlow
    have hle' := Nat.le_of_mul_le_mul_right hle (by positivity)
    omega

end FloatParts

/-! ## Words -/

theorem toNat_packComponents_negative (e : BitVec 11) (m : BitVec 52) :
    (packComponents Format.binary64 .negative e m).toNat =
      (packComponents Format.binary64 .positive e m).toNat + Double.signUnit := by
  rw [toNat_packComponents_sign, toNat_packComponents]
  have hsign : Sign.negative.toBitVec.toNat = 1 := rfl
  simp only [hsign, Double.signUnit]
  omega

/-- What is not a number does not depend on the sign. -/
theorem isNaN_packComponents (s : Sign) (e : BitVec 11) (m : BitVec 52) :
    (UnpackedFloat.unpack Format.binary64 (packComponents Format.binary64 s e m)).isNaN =
      decide (e = -1#11 ∧ m ≠ 0#52) := by
  rw [unpack_packComponents]
  by_cases he : e = -1#11
  · by_cases hm : m = 0#52
    · rw [if_pos he, if_pos hm]
      exact (decide_eq_false fun h => h.2 hm).symm
    · rw [if_pos he, if_neg hm]
      exact (decide_eq_true ⟨he, hm⟩).symm
  · have hnumber : decide (e = -1#11 ∧ m ≠ 0#52) = false := decide_eq_false fun h => he h.1
    rw [if_neg he, hnumber]
    by_cases h₂ : e = 0#11
    · rw [if_pos h₂]
      by_cases hm : m.toNat = 0
      · rw [dif_pos hm]
        rfl
      · rw [dif_neg hm]
        rfl
    · rw [if_neg h₂]
      rfl

/-- The negative of a magnitude has the same components. -/
theorem exists_components (p : FloatParts) : ∃ (e : BitVec 11) (m : BitVec 52),
    UnpackedFloat.pack Format.binary64 p.unpacked = packComponents Format.binary64 .positive e m ∧
    UnpackedFloat.pack Format.binary64 p.unpacked.neg =
      packComponents Format.binary64 .negative e m := by
  by_cases h : p.mantissa = 0
  · rw [FloatParts.unpacked_of_eq_zero h]
    exact ⟨_, _, rfl, rfl⟩
  · have hneg : UnpackedFloat.neg (.finite .positive p.mantissa p.exponent (Nat.pos_of_ne_zero h)) =
        .finite .negative p.mantissa p.exponent (Nat.pos_of_ne_zero h) := rfl
    rw [FloatParts.unpacked_of_ne_zero h, hneg, pack_finite, pack_finite]
    split_ifs <;> exact ⟨_, _, rfl, rfl⟩

/-- The negative of a finite magnitude as a number. -/
theorem ofFloat_neg_pack {p : FloatParts} (hp : p.Canonical) (hmax : p.exponent ≤ 971) :
    Double.ofFloat (Float.neg (.ofModel (.pack p.unpacked))) = .ofMagnitude true p.packed := by
  obtain ⟨e, m, hpositive, hnegative⟩ := exists_components p
  have hlt : p.packed + Double.signUnit < 2 ^ 64 := by
    have hlt := packed_lt hp hmax
    simp only [Double.infinity, Double.signUnit] at hlt ⊢
    omega
  have hmodel : Float.neg (.ofModel (.pack p.unpacked)) = .ofModel (.pack p.unpacked.neg) := by
    change Float.ofModel (.pack (UnpackedFloat.unpack Format.binary64
      (UnpackedFloat.pack Format.binary64 p.unpacked)).neg) = _
    rw [unpack_pack hp hmax]
  have hnan : (Float.ofModel (.pack p.unpacked.neg)).isNaN = false := by
    change (UnpackedFloat.unpack Format.binary64
      (UnpackedFloat.pack Format.binary64 p.unpacked.neg)).isNaN = false
    rw [hnegative, isNaN_packComponents, ← isNaN_packComponents .positive, ← hpositive,
      unpack_pack hp hmax, isNaN_unpacked]
  rw [hmodel, Double.ofFloat, if_neg (by rw [hnan]; exact Bool.false_ne_true)]
  refine congrArg Double.mk (UInt64.toNat_inj.1 ?_)
  change (UnpackedFloat.pack Format.binary64 p.unpacked.neg).toNat = _
  rw [hnegative, toNat_packComponents_negative, ← hpositive, toNat_pack hp hmax]
  simp only [if_true, UInt64.toNat_ofNat']
  rw [Nat.mod_eq_of_lt hlt]

namespace Double

/-- The parts of a word as a float: its magnitude is near the float. -/
structure Parts (w : Int64) (p : FloatParts) : Prop where
  canonical : p.Canonical
  near : p.Near w.toInt.natAbs 0
  exponent_le : p.exponent ≤ 971
  eq : ofWord w = .ofMagnitude (decide (w.toInt < 0)) p.packed

theorem natAbs_le (w : Int64) : w.toInt.natAbs ≤ 2 ^ 63 := by
  have hbounds := Word.toInt_bounds w
  simp only [Word.least, Word.greatest] at hbounds
  omega

/-- The float of an integer up to `2^63` is finite. -/
theorem exponent_le_of_near {p : FloatParts} (hp : p.Canonical) {n : ℕ} (h : p.Near n 0)
    (hn : n ≤ 2 ^ 63) : p.exponent ≤ 971 := by
  have hrank := h.rank_le hp hn
  simp only [FloatParts.rank, FloatParts.finest] at hrank
  omega

/-- **A word** is turned into the float that it is near, with its sign. -/
theorem ofWord_parts (w : Int64) : ∃ p, Parts w p := by
  rcases Nat.eq_zero_or_pos w.toInt.natAbs with hzero | hpos
  · have hcanonical : FloatParts.Canonical ⟨false, 0, -1074⟩ :=
      ⟨by decide, by decide, Or.inr rfl⟩
    refine ⟨_, hcanonical, hcanonical.near (by simp [hzero]), by decide, ?_⟩
    rw [ofWord, Int.natAbs_eq_zero.1 hzero]
    decide +kernel
  · obtain ⟨p, hp, hcanonical, hnear⟩ := ofNat_near hpos
    have hmax := exponent_le_of_near hcanonical hnear (natAbs_le w)
    refine ⟨p, hcanonical, hnear, hmax, ?_⟩
    unfold ofWord ofInt
    cases hw : w.toInt with
    | ofNat n =>
      rw [hw] at hp
      have hsign : ¬ Int.ofNat n < 0 := Int.not_lt.2 (Int.natCast_nonneg n)
      rw [decide_eq_false hsign]
      exact (congrArg ofFloat hp).trans (ofFloat_pack hcanonical hmax)
    | negSucc n =>
      rw [hw] at hp
      rw [decide_eq_true (Int.negSucc_lt_zero n)]
      exact (congrArg (ofFloat ∘ Float.neg) hp).trans (ofFloat_neg_pack hcanonical hmax)

namespace Parts

variable {a b w : Int64} {p q : FloatParts}

theorem packed_lt (h : Parts w p) : p.packed < infinity :=
  StreamSql.packed_lt h.canonical h.exponent_le

theorem magnitude (h : Parts w p) : (ofWord w).magnitude = p.packed := by
  rw [h.eq, magnitude_ofMagnitude (h.packed_lt.trans (by decide))]

theorem isNaN (h : Parts w p) : (ofWord w).isNaN = false :=
  decide_eq_false (by rw [h.magnitude]; exact Nat.not_lt.2 h.packed_lt.le)

theorem isNegative (h : Parts w p) : (ofWord w).isNegative = decide (w.toInt < 0) := by
  rw [h.eq, isNegative_ofMagnitude (h.packed_lt.trans (by decide))]

theorem place (h : Parts w p) :
    (ofWord w).place = if w.toInt < 0 then -(p.packed : Int) else p.packed := by
  simp only [Double.place, h.isNegative, h.magnitude, decide_eq_true_eq]

/-- Of two words with one sign, that with the greater magnitude has the greater bits or the same
    float. -/
theorem packed_lt_or_eq (ha : Parts a p) (hb : Parts b q) (hsign : a.toInt < 0 ↔ b.toInt < 0)
    (h : a.toInt.natAbs ≤ b.toInt.natAbs) : p.packed < q.packed ∨ ofWord a = ofWord b := by
  refine (FloatParts.Near.lt_or_eq ha.canonical hb.canonical ha.near hb.near h).imp_right ?_
  rintro ⟨hm, he⟩
  have hsign' : decide (a.toInt < 0) = decide (b.toInt < 0) := decide_eq_decide.2 hsign
  rw [ha.eq, hb.eq, hsign']
  simp only [FloatParts.packed, hm, he]

theorem packed_pos (h : Parts w p) (hw : w.toInt ≠ 0) : 0 < p.packed := by
  have hmantissa := h.near.mantissa_pos h.canonical (Int.natAbs_pos.2 hw)
  rw [h.canonical.packed_eq]
  omega

/-- **The order of two words as floats**: the greater word has the greater float or the same. -/
theorem place_lt_or_eq (ha : Parts a p) (hb : Parts b q) (h : a.toInt < b.toInt) :
    (ofWord a).place < (ofWord b).place ∨ ofWord a = ofWord b := by
  rw [ha.place, hb.place]
  by_cases hneg : b.toInt < 0
  · -- both are negative, and so the magnitude of `b` is the smaller one
    rw [if_pos (h.trans hneg), if_pos hneg]
    rcases hb.packed_lt_or_eq ha (by omega) (by omega) with hlt | heq
    · exact Or.inl (by omega)
    · exact Or.inr heq.symm
  · by_cases hneg' : a.toInt < 0
    · have hpos := ha.packed_pos hneg'.ne
      rw [if_pos hneg', if_neg hneg]
      exact Or.inl (by omega)
    · rw [if_neg hneg', if_neg hneg]
      exact (ha.packed_lt_or_eq hb (by omega) (by omega)).imp_left Int.ofNat_lt.2

/-- Magnitudes with one float. -/
theorem spread (ha : Parts a p) (hb : Parts b q) (h : p.packed = q.packed)
    (hlt : a.toInt.natAbs < b.toInt.natAbs) :
    2 ^ 53 < b.toInt.natAbs ∧ b.toInt.natAbs ≤ a.toInt.natAbs + 1024 := by
  have hsame := FloatParts.Near.lt_or_eq ha.canonical hb.canonical ha.near hb.near hlt.le
  obtain ⟨hm, he⟩ := hsame.resolve_left h.not_lt
  refine ⟨Nat.lt_of_not_ge fun hle => ?_, ?_⟩
  · have hvalue : (a.toInt.natAbs : ℚ) = b.toInt.natAbs := by
      rw [← ha.near.exact ha.canonical (hlt.le.trans hle), ← hb.near.exact hb.canonical hle, hm, he]
    exact hlt.ne (by exact_mod_cast hvalue)
  · exact ha.near.spread ha.canonical (hb.near.congr hm.symm he.symm) (natAbs_le b)

end Parts

/-- **Words as floats**, compared: as integers, unless they have one float. -/
theorem compare?_ofWord (a b : Int64) :
    (ofWord a).compare? (ofWord b) =
      some (if ofWord a = ofWord b then .eq else Ord.compare a.toInt b.toInt) := by
  obtain ⟨p, ha⟩ := ofWord_parts a
  obtain ⟨q, hb⟩ := ofWord_parts b
  rw [compare?, ha.isNaN, hb.isNaN]
  simp only [Bool.or_self, Bool.false_eq_true, if_false, Option.some.injEq]
  split
  · next heq => exact compare_eq_iff_eq.2 (congrArg place heq)
  · next hne =>
    rcases lt_trichotomy a.toInt b.toInt with hlt | heq | hgt
    · have hplace := (ha.place_lt_or_eq hb hlt).resolve_right hne
      rw [compare_lt_iff_lt.2 hplace, compare_lt_iff_lt.2 hlt]
    · exact absurd (congrArg ofWord (Int64.toInt_inj.1 heq)) hne
    · have hplace := (hb.place_lt_or_eq ha hgt).resolve_right (Ne.symm hne)
      rw [compare_gt_iff_gt.2 hplace, compare_gt_iff_gt.2 hgt]

/-- Two words with one float are beyond `2^53`, one of them at least, and differ by 1024 at most. -/
theorem ofWord_eq {a b : Int64} (h : ofWord a = ofWord b) (hne : a ≠ b) :
    2 ^ 53 < max a.toInt.natAbs b.toInt.natAbs ∧ (a.toInt - b.toInt).natAbs ≤ 1024 := by
  obtain ⟨p, ha⟩ := ofWord_parts a
  obtain ⟨q, hb⟩ := ofWord_parts b
  have hpacked : p.packed = q.packed := by rw [← ha.magnitude, ← hb.magnitude, h]
  have hsign : a.toInt < 0 ↔ b.toInt < 0 := by
    rw [← decide_eq_decide, ← ha.isNegative, ← hb.isNegative, h]
  have hne' : a.toInt ≠ b.toInt := fun he => hne (Int64.toInt_inj.1 he)
  rcases Nat.lt_trichotomy a.toInt.natAbs b.toInt.natAbs with hlt | heq | hgt
  · have hspread := ha.spread hb hpacked hlt
    omega
  · omega
  · have hspread := hb.spread ha hpacked.symm hgt
    omega

end Double

end StreamSql
