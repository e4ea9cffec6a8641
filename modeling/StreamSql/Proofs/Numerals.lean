/-
  Numerals are read as the numbers that they are written from.

  * `Numeral.readFloat?_literal`: the text of a finite float;
  * `Numeral.readWord?_toString`: the text of a natural number.
-/
import Mathlib.Data.List.TakeWhile
import Mathlib.Tactic.GCongr
import StreamSql.Expr.Parser
import StreamSql.Proofs.Packing

namespace StreamSql

/-! ## Nearest floats -/

namespace FloatParts

variable {p : FloatParts} {digits places : ℕ}

/-- Only zero is near a decimal that is less than the least float. -/
theorem Near.mantissa_eq_zero (h : p.Near digits places)
    (hsmall : digits * 2 ^ finest < 2 * 10 ^ places) : p.mantissa = 0 := by
  by_contra hm
  have hbelow := p.below_le
  have hunit : 1 ≤ 2 ^ p.rank := Nat.one_le_two_pow
  have : 2 * 10 ^ places ≤ (4 * p.mantissa - p.below) * 2 ^ p.rank * 10 ^ places :=
    Nat.mul_le_mul_right _ (le_trans (by omega) (Nat.mul_le_mul (by omega : 2 ≤ _) hunit))
  have := h.low
  omega

/-- The exponent of a float bounds the decimals near it. -/
theorem Near.lt_of_rank_le (h : p.Near digits places) (hp : p.Canonical) {top : ℕ}
    (htop : p.rank ≤ top) : digits * 2 ^ finest < 2 ^ (56 + top) * 10 ^ places := by
  have hmantissa : 4 * p.mantissa + 2 < 2 ^ 56 := by
    have := hp.mantissa_lt
    simp only [Double.exponentUnit] at this
    omega
  calc digits * 2 ^ finest ≤ (4 * p.mantissa + 2) * 2 ^ p.rank * 10 ^ places := h.high
    _ < 2 ^ 56 * 2 ^ p.rank * 10 ^ places := by gcongr
    _ = 2 ^ (56 + p.rank) * 10 ^ places := by rw [← pow_add]
    _ ≤ 2 ^ (56 + top) * 10 ^ places :=
      Nat.mul_le_mul_right _ (Nat.pow_le_pow_right two_pos (by omega))

end FloatParts

/-- The number of digits tells the size of a number. -/
theorem digitCount_bounds {n : ℕ} (hn : 0 < n) :
    10 ^ (Shortest.digitCount n - 1) ≤ n ∧ n < 10 ^ Shortest.digitCount n ∧
      0 < Shortest.digitCount n := by
  have hpos : 0 < Shortest.digitCount n := Nat.length_toDigits_pos
  refine ⟨?_, (Nat.length_toDigits_le_iff (by decide) hpos).1 le_rfl, hpos⟩
  rcases Nat.eq_zero_or_pos (Shortest.digitCount n - 1) with h0 | hpos'
  · rw [h0]
    exact hn
  · refine Nat.le_of_not_lt fun hlt => ?_
    have : Shortest.digitCount n ≤ Shortest.digitCount n - 1 :=
      (Nat.length_toDigits_le_iff (by decide) hpos').2 hlt
    omega

namespace Numeral

variable {p : FloatParts} {digits places : ℕ}

/-- A decimal is not too great for a float that is near it. -/
theorem digitCount_le (hp : p.Canonical) (hmax : p.exponent ≤ 971) (h : p.Near digits places)
    (hd : 0 < digits) : Shortest.digitCount digits ≤ places + 310 := by
  obtain ⟨hle, -, -⟩ := digitCount_bounds hd
  by_contra hgt
  have hpow : 10 ^ 310 * 10 ^ places ≤ digits :=
    calc 10 ^ 310 * 10 ^ places = 10 ^ (places + 310) := by rw [pow_add, Nat.mul_comm]
      _ ≤ 10 ^ (Shortest.digitCount digits - 1) := Nat.pow_le_pow_right (by decide) (by omega)
      _ ≤ digits := hle
  have hrank : p.rank ≤ 2045 := by
    unfold FloatParts.rank
    omega
  have hlt := h.lt_of_rank_le hp hrank
  have : 2 ^ (56 + 2045) * 10 ^ places ≤ digits * 2 ^ FloatParts.finest :=
    calc 2 ^ (56 + 2045) * 10 ^ places ≤ (10 ^ 310 * 2 ^ FloatParts.finest) * 10 ^ places :=
          Nat.mul_le_mul_right _ (by decide +kernel)
      _ = 10 ^ 310 * 10 ^ places * 2 ^ FloatParts.finest := Nat.mul_right_comm ..
      _ ≤ digits * 2 ^ FloatParts.finest := Nat.mul_le_mul_right _ hpow
  exact absurd hlt (Nat.not_lt.2 this)

/-- Only zero is near a decimal that begins far behind the point. -/
theorem mantissa_eq_zero_of_digitCount (h : p.Near digits places) (hd : 0 < digits)
    (hfar : Shortest.digitCount digits + 330 < places) : p.mantissa = 0 := by
  obtain ⟨-, hlt, -⟩ := digitCount_bounds hd
  refine h.mantissa_eq_zero ?_
  calc digits * 2 ^ FloatParts.finest
      ≤ 10 ^ Shortest.digitCount digits * 10 ^ 330 :=
        Nat.mul_le_mul hlt.le (by decide +kernel)
    _ = 10 ^ (Shortest.digitCount digits + 330) := (pow_add ..).symm
    _ ≤ 10 ^ places := Nat.pow_le_pow_right (by decide) hfar.le
    _ < 2 * 10 ^ places := by
      have : 0 < 10 ^ places := by positivity
      omega

theorem packed_of_mantissa (h : p.mantissa = 0) : p.packed = 0 := by
  simp [FloatParts.packed, h]

/-- **The nearest float** of a decimal is the one that the decimal is near. -/
theorem nearestFloat_of_near (hp : p.Canonical) (hmax : p.exponent ≤ 971)
    (h : p.Near digits places) (hpos : 0 < places) :
    nearestFloat ⟨digits, -places⟩ = .ofMagnitude false p.packed := by
  have hzero : p.mantissa = 0 → (0.0 : Double) = .ofMagnitude false p.packed := fun hm => by
    rw [packed_of_mantissa hm]
    decide +kernel
  unfold nearestFloat
  split
  · next h0 =>
    obtain rfl : digits = 0 := h0
    exact hzero (h.mantissa_eq_zero (by rw [Nat.zero_mul]; positivity))
  · next h0 =>
    have hd : 0 < digits := Nat.pos_of_ne_zero h0
    have hle := digitCount_le hp hmax h hd
    simp only
    rw [if_neg (by omega)]
    split
    · next hfar => exact hzero (mantissa_eq_zero_of_digitCount h hd (by omega))
    · next hfar =>
      obtain ⟨hdigits, -, -⟩ := digitCount_bounds hd
      have hlog : Shortest.digitCount digits - 1 ≤ digits.log2 :=
        (Nat.le_log2 hd.ne').2 ((Nat.pow_le_pow_left (by decide) _).trans hdigits)
      have hfar' : places ≤ 2 ^ 11 + digits.log2 := by omega
      obtain ⟨q, hq, -, hqc, hqn⟩ := ofScientific_near hd hpos hfar'
      obtain ⟨hm, he⟩ := FloatParts.near_unique hqc hp hqn h
      have hpacked : q.packed = p.packed := by rw [FloatParts.packed, FloatParts.packed, hm, he]
      rw [show decide (-(places : ℤ) < 0) = true from decide_eq_true (by omega),
        Int.natAbs_neg, Int.natAbs_natCast]
      change Double.ofFloat (Float.ofScientific digits true places) = _
      rw [hq, ofFloat_pack hqc (he ▸ hmax), hpacked]

/-! ## Texts of numbers -/

theorem ofDigits_eq (cs : List Char) : ofDigits cs = Nat.ofDigitChars 10 cs 0 := rfl

theorem splitSign_of_digit {cs : List Char} (hne : cs ≠ []) (hd : ∀ c ∈ cs, c.isDigit = true)
    (rest : List Char) : splitSign (cs ++ rest) = (false, cs ++ rest) := by
  obtain ⟨c, cs, rfl⟩ := List.exists_cons_of_ne_nil hne
  have hc := hd c List.mem_cons_self
  unfold splitSign
  rw [List.cons_append]
  split
  · next he => exact absurd ((List.cons.inj he).1 ▸ hc) (by decide)
  · next he => exact absurd ((List.cons.inj he).1 ▸ hc) (by decide)
  · rfl

theorem decimal?_spelling {whole fraction : List Char}
    (h : FloatText.Spelling digits places whole fraction) :
    decimal? (whole ++ '.' :: fraction) = some ⟨digits, -places⟩ := by
  have hpoint : ('.' : Char).isDigit = false := by decide
  have hwhole : (whole ++ '.' :: fraction).takeWhile Char.isDigit = whole := by
    rw [List.takeWhile_append_of_pos h.whole_digits, List.takeWhile_cons_of_neg (by simp [hpoint]),
      List.append_nil]
  have hrest : (whole ++ '.' :: fraction).dropWhile Char.isDigit = '.' :: fraction := by
    rw [List.dropWhile_append_of_pos h.whole_digits, List.dropWhile_cons_of_neg (by simp [hpoint])]
  have hfraction : fraction.takeWhile Char.isDigit = fraction :=
    List.takeWhile_eq_self_iff.2 h.fraction_digits
  have hend : fraction.dropWhile Char.isDigit = [] := List.dropWhile_eq_nil_iff.2 h.fraction_digits
  unfold decimal?
  rw [hwhole, hrest]
  simp only [hfraction, hend, h.whole_ne_nil, false_and, if_false, exponent?, Option.map_some,
    ofDigits_eq, h.value, h.length, zero_sub]

/-- A number with a point is read as the decimal that it spells. -/
theorem magnitude?_spelling {whole fraction : List Char}
    (h : FloatText.Spelling digits places whole fraction) :
    magnitude? (whole ++ '.' :: fraction) = some (nearestFloat ⟨digits, -places⟩) := by
  -- the words for special values have no point
  have hpoint : '.' ∈ (Text.foldAscii (String.ofList (whole ++ '.' :: fraction))).toList := by
    rw [Text.foldAscii, String.toList_map]
    exact List.mem_map.2 ⟨'.', by simp, by decide⟩
  have hword : ∀ word : String, '.' ∉ word.toList →
      Text.foldAscii (String.ofList (whole ++ '.' :: fraction)) ≠ word :=
    fun word hw he => hw (he ▸ hpoint)
  unfold magnitude?
  simp only [hword "inf" (by decide), hword "infinity" (by decide), hword "nan" (by decide),
    or_self, if_false, decimal?_spelling h, Option.map_some]

/-- **The text of a finite float** is read as that float. -/
theorem readFloat?_literal {x : Double} (h : x.isFinite = true) :
    readFloat? (FloatText.literal x) = some x := by
  obtain ⟨p, whole, fraction, digits, places, hview, hp, hnear, hspelling, htext⟩ :=
    FloatText.literal_spelling h
  obtain ⟨q, hview', -, hsign, hmagnitude⟩ := FloatView.of_finite h
  obtain rfl : q = p := FloatView.finite.inj (hview'.symm.trans hview)
  have hpacked : x.magnitude = q.packed := hmagnitude
  have hmax : q.exponent ≤ 971 := by
    have hlt : x.magnitude < Double.infinity := of_decide_eq_true h
    have hnormal := hp.normal
    rw [hmagnitude] at hlt
    simp only [Double.exponentUnit, Double.infinity] at hlt hnormal
    split at hlt <;> omega
  have hlt : q.packed < Double.signUnit := (packed_lt hp hmax).trans (by decide)
  have hread : magnitude? (whole ++ '.' :: fraction) = some (.ofMagnitude false q.packed) := by
    rw [magnitude?_spelling hspelling, nearestFloat_of_near hp hmax hnear hspelling.places_pos]
  unfold readFloat?
  rw [htext]
  cases hx : x.isNegative with
  | false =>
    rw [show (FloatText.sign false).toList = [] from rfl, List.nil_append,
      splitSign_of_digit hspelling.whole_ne_nil hspelling.whole_digits]
    simp only [hread, Option.map_some]
    refine congrArg some (Double.eq_of_magnitude ?_ ?_)
    · simp [Double.isNegative_ofMagnitude hlt, hx]
    · simp [Double.magnitude_ofMagnitude hlt, hpacked]
  | true =>
    rw [show (FloatText.sign true).toList = ['-'] from rfl]
    simp only [List.singleton_append, splitSign, hread, Option.map_some]
    refine congrArg some (Double.eq_of_magnitude ?_ ?_)
    · simp [Double.isNegative_neg, Double.isNegative_ofMagnitude hlt, hx]
    · simp [Double.magnitude_neg, Double.magnitude_ofMagnitude hlt, hpacked]

/-- **The text of a natural number** is read as its word. -/
theorem readWord?_toString {w : Int64} (h : 0 ≤ w.toInt) :
    readWord? (toString w.toInt) = some w := by
  have htext := integer_toList w.toInt
  rw [if_neg (by omega), List.nil_append] at htext
  have hdigits := FloatText.toDigits_digits w.toInt.natAbs
  unfold readWord?
  rw [htext, ← List.append_nil (Nat.toDigits 10 w.toInt.natAbs),
    splitSign_of_digit Nat.toDigits_ne_nil hdigits, List.append_nil]
  have hnatural : natural? (Nat.toDigits 10 w.toInt.natAbs) = some w.toInt.natAbs := by
    rw [natural?, if_pos ⟨Nat.toDigits_ne_nil, List.all_eq_true.2 hdigits⟩, ofDigits_eq,
      Nat.ofDigitChars_ten_toDigits]
  simp only [hnatural, Option.bind_some, Bool.false_eq_true, if_false]
  exact Word.ofInt?_eq_some_iff.2 (Int.natAbs_of_nonneg h).symm

/-- A text that begins with a digit is not that of a negative word. -/
theorem nonneg_of_readWord? {s : String} {w : Int64} (h : readWord? s = some w) {c : Char}
    (hc : s.toList.head? = some c) (hd : c.isDigit = true) : 0 ≤ w.toInt := by
  obtain ⟨rest, hs⟩ := List.head?_eq_some_iff.1 hc
  have hsign := splitSign_of_digit (List.cons_ne_nil c []) (List.forall_mem_singleton.2 hd) rest
  unfold readWord? at h
  rw [hs, ← List.singleton_append, hsign] at h
  obtain ⟨n, -, hn⟩ := Option.bind_eq_some_iff.1 h
  have hw := Word.ofInt?_eq_some_iff.1 hn
  simp only [Bool.false_eq_true, if_false] at hw
  omega

end Numeral

end StreamSql
