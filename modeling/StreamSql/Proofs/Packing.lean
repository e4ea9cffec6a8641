/-
  The bits of finite floats, and the float nearest to a decimal.

  * `unpack_packComponents`, `pack_finite`: a float read back from its bits, and put into bits;
  * `toNat_pack`, `unpack_pack`: the bits of a finite magnitude, and what they are read as;
  * `ofScientific_near`: a decimal is turned into the float that it is near.
-/
import StreamSql.Proofs.Rounding

namespace StreamSql

open Float.Model Float.Model.UnpackedFloat

namespace FloatParts

/-- The bits of a magnitude. -/
def packed (p : FloatParts) : ℕ :=
  if p.mantissa < Double.exponentUnit then p.mantissa
  else (p.exponent + 1074).toNat * Double.exponentUnit + p.mantissa

end FloatParts

/-! ## Components -/

theorem toNat_packComponents_sign (s : Sign) (e : BitVec 11) (m : BitVec 52) :
    (packComponents Format.binary64 s e m).toNat =
      (s.toBitVec.toNat * 2 ^ 11 + e.toNat) * 2 ^ 52 + m.toNat := by
  unfold packComponents
  rw [BitVec.toNat_append, ← Nat.shiftLeft_add_eq_or_of_lt m.isLt, BitVec.toNat_append,
    ← Nat.shiftLeft_add_eq_or_of_lt e.isLt, Nat.shiftLeft_eq, Nat.shiftLeft_eq]

theorem toNat_packComponents (e : BitVec 11) (m : BitVec 52) :
    (packComponents Format.binary64 .positive e m).toNat = e.toNat * 2 ^ 52 + m.toNat := by
  rw [toNat_packComponents_sign]
  simp [Sign.toBitVec]

theorem unpackSign_packComponents {spec : Format} (s : Sign) (e : BitVec spec.exponentBits)
    (m : BitVec spec.mantissaBitsWithoutImplicit) :
    unpackSign (packComponents spec s e m) = s.toBitVec := by
  apply BitVec.eq_of_getLsbD_eq
  intro i hi
  obtain rfl : i = 0 := by omega
  change ((packComponents spec s e m).extractLsb
    (spec.mantissaBitsWithoutImplicit + spec.exponentBits)
    (spec.mantissaBitsWithoutImplicit + spec.exponentBits)).getLsbD 0 = _
  simp [packComponents, BitVec.getLsbD_append, BitVec.getElem_append]

theorem toNat_implicit (m : BitVec 52) : (1#1 ++ m).toNat = 2 ^ 52 + m.toNat := by
  rw [BitVec.toNat_append, ← Nat.shiftLeft_add_eq_or_of_lt m.isLt]
  simp [Nat.shiftLeft_eq]

/-- A float read back from its bits. -/
theorem unpack_packComponents (s : Sign) (e : BitVec 11) (m : BitVec 52) :
    UnpackedFloat.unpack Format.binary64 (packComponents Format.binary64 s e m) =
      if e = -1#11 then if m = 0#52 then .infinity s else .notANumber
      else if e = 0#11 then
        if h : m.toNat = 0 then .zero s else .finite s m.toNat (-1074) (Nat.pos_of_ne_zero h)
      else
        .finite s (2 ^ 52 + m.toNat) ((e.toNat : ℤ) - 1075)
          (Nat.add_pos_left (Nat.two_pow_pos 52) _) := by
  have hsign : Sign.ofBitVec (unpackSign (packComponents Format.binary64 s e m)) = s := by
    rw [unpackSign_packComponents]
    cases s <;> rfl
  have hexponent : unpackExponent (packComponents Format.binary64 s e m) = e :=
    unpackExponent_packComponents
  have hmantissa : unpackMantissa (packComponents Format.binary64 s e m) = m :=
    unpackMantissa_packComponents
  have hzero : m = 0#52 ↔ m.toNat = 0 := BitVec.toNat_inj.symm
  by_cases h₁ : e = -1#11
  · rw [if_pos h₁]
    refine (if_pos (hexponent.trans h₁)).trans ?_
    rw [hsign, hmantissa]
  · rw [if_neg h₁]
    refine (if_neg (hexponent.symm ▸ h₁)).trans ?_
    by_cases h₂ : e = 0#11
    · rw [if_pos h₂]
      refine (if_pos (hexponent.trans h₂)).trans ?_
      by_cases hm : m = 0#52
      · rw [dif_pos (hzero.1 hm)]
        exact (dif_pos (hmantissa.trans hm)).trans (congrArg _ hsign)
      · rw [dif_neg (mt hzero.2 hm)]
        refine (dif_neg (hmantissa.symm ▸ hm)).trans ?_
        rw [UnpackedFloat.finite.injEq, hsign, hmantissa, hexponent, h₂]
        exact ⟨rfl, rfl, rfl⟩
    · rw [if_neg h₂]
      refine (if_neg (hexponent.symm ▸ h₂)).trans ?_
      rw [UnpackedFloat.finite.injEq, hsign, hmantissa, hexponent]
      exact ⟨rfl, toNat_implicit m, rfl⟩

/-- Bits with an exponent stand for a mantissa with all its digits. -/
theorem unpack_normal {e : ℕ} (he : 0 < e) (he' : e < 2047) (m : BitVec 52) :
    UnpackedFloat.unpack Format.binary64
        (packComponents Format.binary64 .positive (BitVec.ofNat 11 e) m) =
      .finite .positive (2 ^ 52 + m.toNat) ((e : ℤ) - 1075)
        (Nat.add_pos_left (Nat.two_pow_pos 52) _) := by
  have htoNat : (BitVec.ofNat 11 e).toNat = e := by
    rw [BitVec.toNat_ofNat, Nat.mod_eq_of_lt (by omega)]
  have h₁ : BitVec.ofNat 11 e ≠ -1#11 := fun h => by
    have := congrArg BitVec.toNat h
    rw [htoNat, show (-1#11).toNat = 2047 by decide] at this
    omega
  have h₂ : BitVec.ofNat 11 e ≠ 0#11 := fun h => by
    have := congrArg BitVec.toNat h
    rw [htoNat, show (0#11).toNat = 0 by decide] at this
    omega
  rw [unpack_packComponents, if_neg h₁, if_neg h₂, UnpackedFloat.finite.injEq, htoNat]
  exact ⟨rfl, rfl, rfl⟩

/-- Bits without an exponent stand for a mantissa at the least exponent. -/
theorem unpack_subnormal (m : BitVec 52) :
    UnpackedFloat.unpack Format.binary64 (packComponents Format.binary64 .positive 0#11 m) =
      FloatParts.unpacked ⟨false, m.toNat, -1074⟩ := by
  rw [unpack_packComponents, if_neg (by decide), if_pos rfl, FloatParts.unpacked]

section
variable {p : FloatParts}

/-- The bits of a finite float, by its exponent and by the length of its mantissa. -/
theorem pack_finite (s : Sign) {m : ℕ} (e : ℤ) (h : 0 < m) :
    UnpackedFloat.pack Format.binary64 (.finite s m e h) =
      if 2 ^ 11 ≤ (e + (1023 : ℕ) + (52 : ℕ)).toNat + 1 then packedInfinity Format.binary64 s
      else if m.log2 + 1 = 53 then
        packComponents Format.binary64 s (BitVec.ofNat 11 (e + (1023 : ℕ) + (52 : ℕ)).toNat)
          (BitVec.ofNat 52 m)
      else packComponents Format.binary64 s 0#11 (BitVec.ofNat 52 m) :=
  rfl

/-- The components of a finite magnitude. -/
theorem pack_unpacked (hp : p.Canonical) (hmax : p.exponent ≤ 971) :
    UnpackedFloat.pack Format.binary64 p.unpacked =
      packComponents Format.binary64 .positive
        (if p.mantissa < 2 ^ 52 then 0#11 else BitVec.ofNat 11 (p.exponent + 1075).toNat)
        (BitVec.ofNat 52 p.mantissa) := by
  obtain ⟨hlt, hge, hnormal⟩ := hp
  simp only [Double.exponentUnit] at hlt hnormal
  by_cases h0 : p.mantissa = 0
  · rw [FloatParts.unpacked_of_eq_zero h0, if_pos (by omega), h0]
    rfl
  · rw [FloatParts.unpacked_of_ne_zero h0]
    have hbiased : (p.exponent + (1023 : ℕ) + (52 : ℕ)).toNat = (p.exponent + 1075).toNat := by
      congr 1
      omega
    rw [pack_finite, hbiased, if_neg (by omega)]
    by_cases hm : p.mantissa < 2 ^ 52
    · have hlog := (Nat.log2_lt h0).2 hm
      rw [if_neg (by omega), if_pos hm]
    · have hlog := (Nat.le_log2 h0).2 (Nat.le_of_not_lt hm)
      have hlog' := (Nat.log2_lt (k := 53) h0).2 (by omega)
      rw [if_pos (by omega), if_neg hm, ← hbiased]

/-- The bits of a finite magnitude. -/
theorem toNat_pack (hp : p.Canonical) (hmax : p.exponent ≤ 971) :
    (UnpackedFloat.pack Format.binary64 p.unpacked).toNat = p.packed := by
  rw [pack_unpacked hp hmax, toNat_packComponents]
  obtain ⟨hlt, hge, hnormal⟩ := hp
  simp only [Double.exponentUnit, FloatParts.packed] at *
  by_cases hm : p.mantissa < 4503599627370496 <;>
    simp only [Nat.reducePow, hm, if_true, if_false, BitVec.toNat_ofNat]
  · omega
  · omega

/-- A finite magnitude is read back from its bits. -/
theorem unpack_pack (hp : p.Canonical) (hmax : p.exponent ≤ 971) :
    UnpackedFloat.unpack Format.binary64 (UnpackedFloat.pack Format.binary64 p.unpacked) =
      p.unpacked := by
  rw [pack_unpacked hp hmax]
  obtain ⟨hlt, hge, hnormal⟩ := hp
  simp only [Double.exponentUnit] at hlt hnormal
  by_cases hm : p.mantissa < 2 ^ 52
  · have hmantissa : (BitVec.ofNat 52 p.mantissa).toNat = p.mantissa := by
      rw [BitVec.toNat_ofNat, Nat.mod_eq_of_lt hm]
    have hexponent : p.exponent = -1074 := hnormal.resolve_left (by omega)
    rw [if_pos hm, unpack_subnormal, hmantissa, ← hexponent]
    rfl
  · have hmantissa : 2 ^ 52 + (BitVec.ofNat 52 p.mantissa).toNat = p.mantissa := by
      rw [BitVec.toNat_ofNat]
      omega
    have hexponent : ((p.exponent + 1075).toNat : ℤ) - 1075 = p.exponent := by omega
    rw [if_neg hm, unpack_normal (by omega) (by omega),
      FloatParts.unpacked_of_ne_zero (by omega), UnpackedFloat.finite.injEq]
    exact ⟨rfl, hmantissa, hexponent⟩

theorem packed_lt (hp : p.Canonical) (hmax : p.exponent ≤ 971) : p.packed < Double.infinity := by
  obtain ⟨hlt, hge, hnormal⟩ := hp
  simp only [Double.exponentUnit, Double.infinity, FloatParts.packed] at *
  split <;> omega

/-- A finite magnitude is a number. -/
theorem isNaN_unpacked (p : FloatParts) : p.unpacked.isNaN = false := by
  by_cases h : p.mantissa = 0
  · rw [FloatParts.unpacked_of_eq_zero h]
    rfl
  · rw [FloatParts.unpacked_of_ne_zero h]
    rfl

/-- A finite magnitude as a number. -/
theorem ofFloat_pack (hp : p.Canonical) (hmax : p.exponent ≤ 971) :
    Double.ofFloat (.ofModel (.pack p.unpacked)) = .ofMagnitude false p.packed := by
  have hnan : (Float.ofModel (.pack p.unpacked)).isNaN = false := by
    change (UnpackedFloat.unpack Format.binary64
      (UnpackedFloat.pack Format.binary64 p.unpacked)).isNaN = false
    rw [unpack_pack hp hmax, isNaN_unpacked]
  have hlt : p.packed < 2 ^ 64 := (packed_lt hp hmax).trans (by decide)
  rw [Double.ofFloat, if_neg (by rw [hnan]; exact Bool.false_ne_true)]
  unfold Double.ofMagnitude
  congr 1
  rw [← UInt64.toNat_inj]
  change (UnpackedFloat.pack Format.binary64 p.unpacked).toNat = _
  rw [toNat_pack hp hmax]
  simp only [Bool.false_eq_true, if_false, Nat.add_zero, UInt64.toNat_ofNat']
  exact (Nat.mod_eq_of_lt hlt).symm

end

/-! ## Decimals -/

/-- A positive number in units of `2^-52`. -/
def units? : UnpackedFloat → Option ℕ
  | .finite .positive m e _ => if -52 ≤ e then some (m * 2 ^ (e + 52).toNat) else none
  | _ => none

theorem of_units? {f : UnpackedFloat} {n : ℕ} (h : units? f = some (n * 2 ^ 52)) :
    ∃ m e hm, f = .finite .positive m e hm ∧ (m : ℚ) * 2 ^ e = n := by
  cases f with
  | finite sign m e hm =>
    cases sign with
    | positive =>
      change (if -52 ≤ e then some (m * 2 ^ (e + 52).toNat) else none) = _ at h
      by_cases he : -52 ≤ e
      · rw [if_pos he] at h
        refine ⟨m, e, hm, rfl, ?_⟩
        have hunits : (m : ℚ) * 2 ^ (e + 52).toNat = n * 2 ^ 52 := by
          exact_mod_cast Option.some.inj h
        rw [← zpow_natCast, Int.toNat_of_nonneg (by omega), zpow_add₀ two_ne_zero,
          ← mul_assoc] at hunits
        exact mul_right_cancel₀ (by norm_num) hunits
      · rw [if_neg he] at h
        cases h
    | negative => exact nomatch h
  | _ => exact nomatch h

/-- The table of powers of ten is exact. -/
theorem units?_powerOfTen : ∀ e : Fin Float.exactlyRepresentablePowersOfTen.size,
    units? (Float.exactlyRepresentablePowersOfTen[e]).toModel.unpack =
      some (10 ^ e.val * 2 ^ 52) := by
  decide +kernel

/-- A natural number with at most as many digits as a mantissa is a float. -/
theorem ofNat_unpacked {n : ℕ} (hn : 0 < n) (hlt : n < 2 ^ 53) :
    ∃ p : FloatParts, UnpackedFloat.ofNat Format.binary64 n = p.unpacked ∧ p.Canonical ∧
      p.exponent ≤ 0 ∧ 0 < p.mantissa ∧ (p.mantissa : ℚ) * 2 ^ p.exponent = n := by
  have hlog : n.log2 < 53 := (Nat.log2_lt hn.ne').2 hlt
  have htarget : Format.binary64.targetExponent (totalExponent n 0) = (n.log2 : ℤ) - 52 := by
    rw [targetExponent_eq, totalExponent]
    omega
  have hshift : (0 - ((n.log2 : ℤ) - 52)).toNat = 52 - n.log2 := by omega
  have hexponent : (0 : ℤ) - (52 - n.log2 : ℕ) = (n.log2 : ℤ) - 52 := by omega
  have hlt' : n * 2 ^ (52 - n.log2) < 2 ^ 53 := by
    calc n * 2 ^ (52 - n.log2) < 2 ^ (n.log2 + 1) * 2 ^ (52 - n.log2) :=
          Nat.mul_lt_mul_of_pos_right Nat.lt_log2_self (by positivity)
      _ = 2 ^ 53 := by
        rw [← pow_add]
        congr 1
        omega
  have hle : 2 ^ 52 ≤ n * 2 ^ (52 - n.log2) := by
    calc 2 ^ 52 = 2 ^ n.log2 * 2 ^ (52 - n.log2) := by
          rw [← pow_add]
          congr 1
          omega
      _ ≤ n * 2 ^ (52 - n.log2) := Nat.mul_le_mul_right _ (Nat.log2_self_le hn.ne')
  have hround := shiftToTargetExponent_of_lt (e := (n.log2 : ℤ) - 52) (by omega) hlt'
  refine ⟨⟨false, n * 2 ^ (52 - n.log2), (n.log2 : ℤ) - 52⟩, ?_, ⟨hlt', ?_, Or.inl hle⟩, ?_, ?_, ?_⟩
  · unfold UnpackedFloat.ofNat UnpackedFloat.ofInt UnpackedFloat.normalize
    rw [Int.compare_eq_gt.2 (by omega)]
    simp only [Int.toNat_natCast, UnpackedFloat.round, htarget, decreaseExponent, hshift, hexponent,
      Nat.shiftLeft_eq]
    exact roundWithAccuracy_eq hround rfl hround
  · simp only
    omega
  · simp only
    omega
  · positivity
  · rw [show (n.log2 : ℤ) - 52 = -((52 - n.log2 : ℕ) : ℤ) by omega, zpow_neg, zpow_natCast]
    push_cast
    exact mul_inv_cancel_right₀ (by positivity) _

theorem toFloat_unpacked {n : ℕ} (hn : 0 < n) (hlt : n < 2 ^ 53) :
    ∃ p : FloatParts, n.toUInt64.toFloat.toModel.unpack = p.unpacked ∧ p.Canonical ∧
      0 < p.mantissa ∧ (p.mantissa : ℚ) * 2 ^ p.exponent = n := by
  obtain ⟨p, hp, hcanonical, hexponent, hmantissa, hvalue⟩ := ofNat_unpacked hn hlt
  refine ⟨p, ?_, hcanonical, hmantissa, hvalue⟩
  have htoNat : n.toUInt64.toNat = n := by
    simp only [Nat.toUInt64, UInt64.toNat_ofNat']
    omega
  change UnpackedFloat.unpack Format.binary64 (UnpackedFloat.pack Format.binary64
    (UnpackedFloat.ofNat Format.binary64 n.toUInt64.toNat)) = _
  rw [htoNat, hp, unpack_pack hcanonical (by omega)]

/-- The quotient of two numbers is the float that a decimal is near. -/
theorem div_near (digits places : ℕ) {a b : UnpackedFloat}
    (ha : ∃ m e hm, a = .finite .positive m e hm ∧ (m : ℚ) * 2 ^ e = digits)
    (hb : ∃ m e hm, b = .finite .positive m e hm ∧ (m : ℚ) * 2 ^ e = (10 ^ places : ℕ)) :
    ∃ p : FloatParts, UnpackedFloat.div Format.binary64 a b = p.unpacked ∧ p.negative = false ∧
      p.Canonical ∧ p.Near digits places := by
  obtain ⟨m₁, e₁, h₁, rfl, hv₁⟩ := ha
  obtain ⟨m₂, e₂, h₂, rfl, hv₂⟩ := hb
  obtain ⟨p, x, hdiv, hsign, hcanonical, hrounds, hx⟩ := div_rounds e₁ e₂ h₁ h₂
  refine ⟨p, hdiv, hsign, hcanonical, hrounds.near hcanonical.exponent_ge ?_⟩
  rw [hx, hv₁, hv₂]
  push_cast
  rfl

/-- A decimal that is not too small is turned into a quotient. -/
theorem ofScientific_eq_div {digits places : ℕ} (hd : 0 < digits) (hp : 0 < places)
    (hfar : places ≤ 2 ^ 11 + digits.log2) :
    UnpackedFloat.ofScientific Format.binary64 digits (-(places : ℤ)) =
      UnpackedFloat.div Format.binary64 (.finite .positive digits 0 hd)
        (.finite .positive (10 ^ places) 0 (Nat.pow_pos (by decide))) := by
  have hbig : ¬ -(places : ℤ) > 2 ^ 11 := by omega
  have hnear : ¬ -(places : ℤ) < -((2 ^ 11 : ℤ) + digits.log2) := by omega
  have hneg : ¬ 0 ≤ -(places : ℤ) := by omega
  have hpower : UnpackedFloat.finite .positive (10 ^ (- -(places : ℤ)).toNat) 0
      (Nat.pow_pos (by decide)) = .finite .positive (10 ^ places) 0 (Nat.pow_pos (by decide)) := by
    rw [UnpackedFloat.finite.injEq, Int.neg_neg, Int.toNat_natCast]
    exact ⟨rfl, rfl, rfl⟩
  exact (dif_neg hd.ne').trans ((if_neg hbig).trans
    ((if_neg hnear).trans ((if_neg hneg).trans (congrArg _ hpower))))

/-- **A decimal** is turned into the float that it is near. -/
theorem ofScientific_near {digits places : ℕ} (hd : 0 < digits) (hp : 0 < places)
    (hfar : places ≤ 2 ^ 11 + digits.log2) :
    ∃ p : FloatParts, Float.ofScientific digits true places = .ofModel (.pack p.unpacked) ∧
      p.negative = false ∧ p.Canonical ∧ p.Near digits places := by
  unfold Float.ofScientific
  split
  · next hsmall =>
    -- both operands are floats
    obtain ⟨hlt, hle⟩ := hsmall
    obtain ⟨q, hq, -, hqm, hqv⟩ := toFloat_unpacked hd hlt
    obtain ⟨p, hdiv, hp'⟩ := div_near digits places (a := digits.toUInt64.toFloat.toModel.unpack)
      ⟨q.mantissa, q.exponent, hqm, by rw [hq, FloatParts.unpacked_of_ne_zero hqm.ne'], hqv⟩
      (of_units? (units?_powerOfTen ⟨places, Nat.lt_succ_of_le hle⟩))
    refine ⟨p, ?_, hp'⟩
    rw [← hdiv]
    rfl
  · obtain ⟨p, hdiv, hp'⟩ := div_near digits places
      ⟨digits, 0, hd, rfl, by simp⟩ ⟨10 ^ places, 0, by positivity, rfl, by simp⟩
    refine ⟨p, ?_, hp'⟩
    change Float.ofModel (.pack (UnpackedFloat.ofScientific Format.binary64 digits
      (Int.negOfNat places))) = _
    rw [Int.negOfNat_eq, Int.ofNat_eq_natCast, ofScientific_eq_div hd hp hfar, hdiv]

end StreamSql
