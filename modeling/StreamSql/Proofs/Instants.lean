/-
  Event times that are integers.

  An integer is turned into a float, which is multiplied or divided by a constant of the unit and
  truncated.  This keeps the order of integers.  It yields the exact time in milliseconds, rounded
  down, for some integers only.

  * `TimeUnit.exact`: the exact time; `TimeUnit.toMillis_number`: the float that is found instead;
  * `Conversion`: both roundings of an integer;
  * `TimeUnit.Reads`: how the outcome compares with the exact time;
  * `EventTime.extract_integer`: event times that are integers.
-/
import StreamSql.Proofs.Dates
import StreamSql.Proofs.WholeFloats

namespace StreamSql

/-! ## Units -/

namespace TimeUnit

/-- The milliseconds of one unit, if it is not less than a millisecond. -/
def factor : TimeUnit → ℕ
  | nanosecond | microsecond | millisecond => 1
  | second => 1000
  | minute => 60000
  | hour => 3600000
  | day => 86400000

/-- The units of one millisecond, if the unit is less than that. -/
def divisor : TimeUnit → ℕ
  | nanosecond => 1000000
  | microsecond => 1000
  | millisecond | second | minute | hour | day => 1

/-- The milliseconds of an integer in the unit, rounded down. -/
def exact (unit : TimeUnit) (n : Int64) : ℤ := n.toInt * unit.factor / unit.divisor

/-- A natural number with a mantissa that has all its digits. -/
def whole (n places : ℕ) : FloatParts := ⟨false, n * 2 ^ places, -places⟩

theorem size_whole (n places : ℕ) : (whole n places).size = n := by
  rw [FloatParts.size, whole, zpow_neg, zpow_natCast]
  push_cast
  exact mul_inv_cancel_right₀ (pow_ne_zero _ two_ne_zero) _

theorem finite_whole {n places : ℕ} (hm : n * 2 ^ places < 2 ^ 53) (hm' : 2 ^ 52 ≤ n * 2 ^ places)
    (hplaces : places ≤ 52) : (whole n places).Finite := by
  refine ⟨⟨hm, ?_, Or.inl hm'⟩, ?_⟩
  · change -1074 ≤ -(places : ℤ)
    omega
  · change -(places : ℤ) ≤ 971
    omega

/-- The float is a natural number, and not so great that products of words by it are too large. -/
structure Constant (c : Double) (n : ℕ) : Prop where
  pos : 0 < n
  le : n ≤ 2 ^ 37
  exists_parts : ∃ q : FloatParts, c = q.number ∧ q.Finite ∧ q.negative = false ∧
    2 ^ 52 ≤ q.mantissa ∧ q.size = n

theorem constant_number {n places : ℕ} (hm : n * 2 ^ places < 2 ^ 53)
    (hm' : 2 ^ 52 ≤ n * 2 ^ places) (hplaces : 16 ≤ places ∧ places ≤ 52) :
    Constant (whole n places).number n := by
  refine ⟨?_, ?_, whole n places, rfl, finite_whole hm hm' hplaces.2, rfl, hm', size_whole ..⟩
  · by_contra hzero
    obtain rfl := Nat.eq_zero_of_not_pos hzero
    omega
  · have hpow : 2 ^ 16 ≤ 2 ^ places := Nat.pow_le_pow_right two_pos hplaces.1
    have hle := Nat.mul_le_mul_left n hpow
    omega

/-- The constants of the units are exact. -/
theorem constants :
    Constant 1000000.0 1000000 ∧ Constant 1000.0 1000 ∧ Constant 60000.0 60000 ∧
      Constant 3600000.0 3600000 ∧ Constant 86400000.0 86400000 := by
  have hparts : (1000000.0 : Double) = (whole 1000000 33).number ∧
      (1000.0 : Double) = (whole 1000 43).number ∧ (60000.0 : Double) = (whole 60000 37).number ∧
      (3600000.0 : Double) = (whole 3600000 31).number ∧
      (86400000.0 : Double) = (whole 86400000 26).number := by
    decide +kernel
  obtain ⟨h₁, h₂, h₃, h₄, h₅⟩ := hparts
  rw [h₁, h₂, h₃, h₄, h₅]
  refine ⟨?_, ?_, ?_, ?_, ?_⟩ <;> exact constant_number (by norm_num) (by norm_num) (by norm_num)

variable {p : FloatParts} {c : Double} {n : ℕ}

theorem Constant.mul_number (hc : Constant c n) (hp : p.Finite) (hsize : p.size ≤ 2 ^ 63) :
    ∃ r : FloatParts, p.number * c = r.number ∧ r.Finite ∧ r.negative = p.negative ∧
      r.Nearest (p.size * n) := by
  obtain ⟨q, rfl, hq, hsign, hdigits, hn⟩ := hc.exists_parts
  have hle : (n : ℚ) ≤ 2 ^ 37 := by exact_mod_cast hc.le
  have hbound : p.size * q.size ≤ 2 ^ 100 := by
    calc p.size * q.size ≤ 2 ^ 63 * 2 ^ 37 :=
          mul_le_mul hsize (hn ▸ hle) q.size_nonneg (by positivity)
      _ = 2 ^ 100 := by norm_num
  rw [← hn]
  exact FloatParts.mul_number hp hq hsign hdigits hbound

theorem Constant.div_number (hc : Constant c n) (hp : p.Finite) (hsize : p.size ≤ 2 ^ 63) :
    ∃ r : FloatParts, p.number / c = r.number ∧ r.Finite ∧ r.negative = p.negative ∧
      r.Nearest (p.size / n) := by
  obtain ⟨q, rfl, hq, hsign, hdigits, hn⟩ := hc.exists_parts
  have hpos : (1 : ℚ) ≤ n := by exact_mod_cast hc.pos
  have hbound : p.size / q.size ≤ 2 ^ 100 := by
    calc p.size / q.size ≤ p.size := div_le_self p.size_nonneg (hn ▸ hpos)
      _ ≤ 2 ^ 100 := hsize.trans (by norm_num)
  rw [← hn]
  exact FloatParts.div_number hp hq hsign (by omega) hbound

/-- **The milliseconds of a float**: the exact product or quotient, rounded. -/
theorem toMillis_number (unit : TimeUnit) (hp : p.Finite) (hsize : p.size ≤ 2 ^ 63) :
    ∃ r : FloatParts, unit.toMillis p.number = r.number ∧ r.Finite ∧ r.negative = p.negative ∧
      r.Nearest (p.size * unit.factor / unit.divisor) := by
  obtain ⟨hmillion, hthousand, hminute, hhour, hday⟩ := constants
  cases unit with
  | nanosecond =>
    rw [factor, divisor, Nat.cast_one, mul_one]
    exact hmillion.div_number hp hsize
  | microsecond =>
    rw [factor, divisor, Nat.cast_one, mul_one]
    exact hthousand.div_number hp hsize
  | millisecond =>
    rw [factor, divisor, Nat.cast_one, mul_one, div_one]
    exact ⟨p, rfl, hp, rfl, hp.canonical.nearest⟩
  | second =>
    rw [factor, divisor, Nat.cast_one, div_one]
    exact hthousand.mul_number hp hsize
  | minute =>
    rw [factor, divisor, Nat.cast_one, div_one]
    exact hminute.mul_number hp hsize
  | hour =>
    rw [factor, divisor, Nat.cast_one, div_one]
    exact hhour.mul_number hp hsize
  | day =>
    rw [factor, divisor, Nat.cast_one, div_one]
    exact hday.mul_number hp hsize

end TimeUnit

/-! ## Integers in a unit -/

/-- An integer in the unit is rounded to a float, and its milliseconds are rounded to another one,
    which is truncated with the sign of the integer. -/
structure Conversion (unit : TimeUnit) (n : Int64) (p r : FloatParts) : Prop where
  amount : p.Canonical
  amount_nearest : p.Nearest n.toInt.natAbs
  millis : r.Canonical
  millis_nearest : r.Nearest (p.size * unit.factor / unit.divisor)
  word : toWord (unit.toMillis (.ofWord n)) =
    Word.nearest (if n.toInt < 0 then -(⌊r.size⌋₊ : ℤ) else ⌊r.size⌋₊)

theorem exists_conversion (unit : TimeUnit) (n : Int64) : ∃ p r, Conversion unit n p r := by
  obtain ⟨p, hword, hp, hsign, hnearest⟩ := Double.ofWord_number n
  have hle : p.size ≤ 2 ^ 63 := by
    exact_mod_cast hnearest.le_whole hp.canonical (whole_two_pow 63)
      (Nat.cast_le.2 (Double.natAbs_le n))
  obtain ⟨r, hmillis, hr, hsign', hnearest'⟩ := unit.toMillis_number hp hle
  refine ⟨p, r, hp.canonical, hnearest, hr.canonical, hnearest', ?_⟩
  rw [hword, hmillis, FloatParts.toWord_number hr, FloatParts.signed, hsign', hsign]
  simp only [decide_eq_true_eq]

namespace Conversion

variable {unit : TimeUnit} {m n : Int64} {p q r s : FloatParts}

/-- A greater magnitude has no fewer milliseconds. -/
theorem floor_le (hm : Conversion unit m p r) (hn : Conversion unit n q s)
    (h : m.toInt.natAbs ≤ n.toInt.natAbs) : ⌊r.size⌋₊ ≤ ⌊s.size⌋₊ := by
  have hamount : p.size ≤ q.size :=
    hm.amount_nearest.size_le hm.amount hn.amount_nearest hn.amount (Nat.cast_le.2 h)
  have hexact : p.size * unit.factor / unit.divisor ≤ q.size * unit.factor / unit.divisor := by
    gcongr
  exact Nat.floor_le_floor
    (hm.millis_nearest.size_le hm.millis hn.millis_nearest hn.millis hexact)

/-- Milliseconds that are natural numbers are rounded to whole floats. -/
theorem exists_whole (h : Conversion unit n p r) (hd : unit.divisor = 1) :
    ∃ k, Whole k ∧ r.size = k := by
  obtain ⟨k, -, hk⟩ := h.amount_nearest.exists_whole h.amount
  have hnearest := h.millis_nearest
  rw [hk, hd, Nat.cast_one, div_one, ← Nat.cast_mul] at hnearest
  exact hnearest.exists_whole h.millis

/-- Whole milliseconds are found. -/
theorem size_eq_of_whole (h : Conversion unit n p r) (hd : unit.divisor = 1)
    (hwhole : Whole (n.toInt.natAbs * unit.factor)) :
    r.size = (n.toInt.natAbs * unit.factor : ℕ) := by
  have hfactor : 0 < unit.factor := by cases unit <;> decide
  have hamount := h.amount_nearest.eq_of_whole h.amount (hwhole.of_mul hfactor)
  have hnearest := h.millis_nearest
  rw [hamount, hd, Nat.cast_one, div_one, ← Nat.cast_mul] at hnearest
  exact hnearest.eq_of_whole h.millis hwhole

theorem toWord_greatest : toWord (Double.ofWord Int64.maxValue) = Int64.maxValue := by
  decide +kernel

/-- The greatest word is odd, and so it is no time in a greater unit. -/
theorem eq_greatest (hd : unit.divisor = 1) (h : unit.exact n = Word.greatest) :
    unit = .millisecond ∧ n = Int64.maxValue := by
  have hmax : Int64.maxValue.toInt = 9223372036854775807 := by decide
  unfold TimeUnit.exact at h
  cases unit <;> simp only [TimeUnit.factor, TimeUnit.divisor, Word.greatest] at hd h
  case millisecond => exact ⟨rfl, Int64.toInt_inj.1 (by omega)⟩
  all_goals omega

/-- **A unit of milliseconds or more**: exactly the whole times are found, and the greatest word,
    beyond which there is nothing. -/
theorem toInt_eq_exact_iff (h : Conversion unit n p r) (hd : unit.divisor = 1)
    (hleast : Word.least ≤ unit.exact n) (hgreatest : unit.exact n ≤ Word.greatest) :
    (toWord (unit.toMillis (.ofWord n))).toInt = unit.exact n ↔
      Whole (unit.exact n).natAbs ∨ unit.exact n = Word.greatest := by
  have hexact : unit.exact n = n.toInt * unit.factor := by
    rw [TimeUnit.exact, hd, Nat.cast_one, Int.ediv_one]
  have hnatAbs : (unit.exact n).natAbs = n.toInt.natAbs * unit.factor := by
    rw [hexact, Int.natAbs_mul, Int.natAbs_natCast]
  have hsign : unit.exact n < 0 ↔ n.toInt < 0 := by
    rw [hexact]
    cases unit <;> simp only [TimeUnit.factor] <;> omega
  have hword := congrArg Int64.toInt h.word
  rw [Word.toInt_nearest, ← if_congr hsign rfl rfl] at hword
  constructor
  · intro heq
    obtain ⟨k, hk, hsize⟩ := h.exists_whole hd
    rw [heq, hsize, Nat.floor_natCast] at hword
    by_cases hmax : unit.exact n = Word.greatest
    · exact Or.inr hmax
    · -- the least word is whole, and any other one is found without saturation
      have hwhole : (unit.exact n).natAbs = k ∨ (unit.exact n).natAbs = 2 ^ 63 := by
        simp only [Word.least, Word.greatest] at *
        split at hword <;> omega
      rcases hwhole with heq | heq
      · exact Or.inl (heq ▸ hk)
      · exact Or.inl ⟨1, 63, by decide, heq.trans (Nat.one_mul _).symm⟩
  · rintro (hwhole | hmax)
    · rw [hnatAbs] at hwhole
      rw [h.size_eq_of_whole hd hwhole, Nat.floor_natCast, ← hnatAbs] at hword
      rw [hword]
      split <;> omega
    · obtain ⟨rfl, rfl⟩ := eq_greatest hd hmax
      exact (congrArg Int64.toInt toWord_greatest).trans hmax.symm

/-- **A unit below milliseconds**, up to `2^53`: the milliseconds are those of the magnitude, and so
    the exact time is found for what is not negative, and for whole milliseconds. -/
theorem toInt_eq_exact_iff_of_le (h : Conversion unit n p r) (hd : unit.divisor ≠ 1)
    (hn : n.toInt.natAbs ≤ 2 ^ 53) :
    (toWord (unit.toMillis (.ofWord n))).toInt = unit.exact n ↔
      0 ≤ n.toInt ∨ (unit.divisor : ℤ) ∣ n.toInt := by
  have hamount := h.amount_nearest.eq_of_whole h.amount (whole_of_le hn)
  have hnearest := h.millis_nearest
  rw [hamount] at hnearest
  rw [h.word, Word.toInt_nearest]
  unfold TimeUnit.exact
  cases unit <;>
    simp only [TimeUnit.factor, TimeUnit.divisor, Nat.cast_one, mul_one, ne_eq,
      not_true_eq_false, Word.least, Word.greatest] at hd hnearest ⊢
  · rw [hnearest.floor_quotient h.millis (k := 19) (by decide) (by decide) (by decide) (by omega)]
    split <;> omega
  · rw [hnearest.floor_quotient h.millis (k := 9) (by decide) (by decide) (by decide) (by omega)]
    split <;> omega

/-- Nanoseconds that are not next to whole milliseconds are truncated to the milliseconds below,
    since both roundings together move them by less than 1489. -/
theorem floor_nanoseconds {a : ℕ} (ha : a ≤ 2 ^ 63) (hp : p.Canonical) (hpa : p.Nearest a)
    (hr : r.Canonical) (hx : r.Nearest (p.size / (1000000 : ℕ)))
    (hlow : 1489 ≤ a % 1000000) (hhigh : a % 1000000 ≤ 998511) : ⌊r.size⌋₊ = a / 1000000 := by
  have ha' : (a : ℚ) ≤ 2 ^ 63 := by exact_mod_cast ha
  have hwhole : Whole (2 ^ 44 - 1) := whole_of_le (by decide)
  obtain ⟨hamount, hamount'⟩ := abs_le.1 (hpa.abs_sub_le_of_le hp ha')
  have hbound : p.size / (1000000 : ℕ) ≤ (2 ^ 44 - 1 : ℕ) := by
    norm_num
    linarith
  obtain ⟨hmillis, hmillis'⟩ :=
    abs_le.1 (hx.abs_sub_le_of_lt hr hwhole hbound (k := -9) (by decide) (by norm_num))
  have hsplit : (a : ℚ) = (a / 1000000 : ℕ) * 1000000 + (a % 1000000 : ℕ) := by
    exact_mod_cast (Nat.div_add_mod' a 1000000).symm
  have hlow' : (1489 : ℚ) ≤ (a % 1000000 : ℕ) := by exact_mod_cast hlow
  have hhigh' : ((a % 1000000 : ℕ) : ℚ) ≤ 998511 := by exact_mod_cast hhigh
  norm_num at hmillis hmillis'
  exact (Nat.floor_eq_iff r.size_nonneg).2 ⟨by linarith, by linarith⟩

/-- **Nanoseconds** that are not next to whole milliseconds: the exact time is found for what is not
    negative. -/
theorem toInt_eq_exact_iff_of_apart (h : Conversion .nanosecond n p r)
    (hlow : 1489 ≤ n.toInt.natAbs % 1000000) (hhigh : n.toInt.natAbs % 1000000 ≤ 998511) :
    (toWord (TimeUnit.nanosecond.toMillis (.ofWord n))).toInt = TimeUnit.nanosecond.exact n ↔
      0 ≤ n.toInt := by
  have hn := Double.natAbs_le n
  have hnearest := h.millis_nearest
  simp only [TimeUnit.factor, TimeUnit.divisor, Nat.cast_one, mul_one] at hnearest
  have hfloor := floor_nanoseconds hn h.amount h.amount_nearest h.millis hnearest hlow hhigh
  rw [h.word, Word.toInt_nearest, hfloor]
  simp only [TimeUnit.exact, TimeUnit.factor, TimeUnit.divisor, Nat.cast_one, mul_one, Word.least,
    Word.greatest]
  split <;> omega

/-- Both roundings of a quotient, in thousandths. -/
theorem floor_quotient_bounds {a d : ℕ} (ha : a ≤ 2 ^ 63) (hd : 1000 ≤ d) (hp : p.Canonical)
    (hpa : p.Nearest a) (hr : r.Canonical) (hx : r.Nearest (p.size / d)) :
    a * 1000 < (⌊r.size⌋₊ * 1000 + 1762) * d ∧ ⌊r.size⌋₊ * 1000 * d ≤ a * 1000 + 1512 * d := by
  have ha' : (a : ℚ) ≤ 2 ^ 63 := by exact_mod_cast ha
  have hd' : (1000 : ℚ) ≤ d := by exact_mod_cast hd
  have hpos : (0 : ℚ) < d := by linarith
  obtain ⟨hlow, hhigh⟩ := abs_le.1 (hpa.abs_sub_le_of_le hp ha')
  have hbound : p.size / d ≤ 2 ^ 54 - 2 := by
    rw [div_le_iff₀ hpos]
    nlinarith
  obtain ⟨hlt, hle⟩ := hx.floor_bounds hr hbound
  rw [div_lt_iff₀ hpos] at hlt
  rw [← sub_le_iff_le_add, le_div_iff₀ hpos] at hle
  generalize ⌊r.size⌋₊ = k at hlt hle ⊢
  rw [← Nat.cast_lt (α := ℚ), ← Nat.cast_le (α := ℚ)]
  push_cast
  constructor <;> linarith

/-- **A unit below milliseconds**: beyond `2^53`, too, the milliseconds are not further off than by
    one below the exact time and two above it. -/
theorem toInt_near_exact (h : Conversion unit n p r) (hd : unit.divisor ≠ 1) :
    unit.exact n - 1 ≤ (toWord (unit.toMillis (.ofWord n))).toInt ∧
      (toWord (unit.toMillis (.ofWord n))).toInt ≤ unit.exact n + 2 := by
  have hn := Double.natAbs_le n
  have hnearest := h.millis_nearest
  rw [h.word, Word.toInt_nearest]
  unfold TimeUnit.exact
  cases unit <;>
    simp only [TimeUnit.factor, TimeUnit.divisor, Nat.cast_one, mul_one, ne_eq,
      not_true_eq_false, Word.least, Word.greatest] at hd hnearest ⊢
  all_goals
    have hfloor := floor_quotient_bounds hn (by decide) h.amount h.amount_nearest h.millis hnearest
    split <;> omega

end Conversion

/-! ## Event times -/

/-- How the milliseconds `w` that are found for an integer compare with the exact time. -/
structure TimeUnit.Reads (unit : TimeUnit) (n w : Int64) : Prop where
  /-- A unit of milliseconds or more: the times that are floats are found. -/
  coarse : unit.divisor = 1 → Word.least ≤ unit.exact n → unit.exact n ≤ Word.greatest →
    (w.toInt = unit.exact n ↔ Whole (unit.exact n).natAbs ∨ unit.exact n = Word.greatest)
  /-- A unit below milliseconds: what is negative is truncated to the wrong side. -/
  fine : unit.divisor ≠ 1 → n.toInt.natAbs ≤ 2 ^ 53 →
    (w.toInt = unit.exact n ↔ 0 ≤ n.toInt ∨ (unit.divisor : ℤ) ∣ n.toInt)
  /-- Nanoseconds beyond `2^53`, too, if they are not next to whole milliseconds. -/
  apart : unit = .nanosecond → 1489 ≤ n.toInt.natAbs % 1000000 →
    n.toInt.natAbs % 1000000 ≤ 998511 → (w.toInt = unit.exact n ↔ 0 ≤ n.toInt)
  /-- Any integer in a unit below milliseconds. -/
  near : unit.divisor ≠ 1 → unit.exact n - 1 ≤ w.toInt ∧ w.toInt ≤ unit.exact n + 2

namespace EventTime

theorem reads_ofAmount (t : EventTime) (n : Int64) : t.unit.Reads n (t.ofAmount (.ofWord n)) := by
  obtain ⟨p, r, h⟩ := exists_conversion t.unit n
  refine ⟨h.toInt_eq_exact_iff, h.toInt_eq_exact_iff_of_le, fun hunit => ?_, h.toInt_near_exact⟩
  rw [ofAmount]
  rw [hunit] at h ⊢
  exact h.toInt_eq_exact_iff_of_apart

/-- **Event times keep the order** of integers. -/
theorem ofAmount_mono (t : EventTime) {m n : Int64} (h : m ≤ n) :
    t.ofAmount (.ofWord m) ≤ t.ofAmount (.ofWord n) := by
  obtain ⟨p, r, hm⟩ := exists_conversion t.unit m
  obtain ⟨q, s, hn⟩ := exists_conversion t.unit n
  have hle := Int64.le_iff_toInt_le.1 h
  rw [Int64.le_iff_toInt_le, ofAmount, ofAmount, hm.word, hn.word]
  refine Word.nearest_mono ?_
  split
  · split
    · have := hn.floor_le hm (by omega)
      omega
    · omega
  · rw [if_neg (by omega)]
    exact Int.ofNat_le.2 (hm.floor_le hn (by omega))

/-- **Event times that are integers.**  There always is one, and they keep the order of the
    integers.  `TimeUnit.Reads` tells when it is the exact time in milliseconds, rounded down; the
    same time, written by RFC 3339, always yields that, whatever reads such texts. -/
theorem extract_integer (t : EventTime) {r : Record} {n : Int64}
    (hr : r.path t.field = .integer n) :
    ∃ w, t.extract r = .ok w ∧ t.unit.Reads n w ∧
      (∀ {r' : Record} {n' : Int64}, r'.path t.field = .integer n' → n ≤ n' →
        ∃ w', t.extract r' = .ok w' ∧ w ≤ w') ∧
      (∀ {r' : Record} {d : DateTime}, d.Valid →
        d.millis = n.toInt * t.unit.factor / t.unit.divisor →
        r'.path t.field = .text (String.ofList d.render) →
        (∃ w', t.extract r' = .ok w' ∧ w'.toInt = t.unit.exact n) ∧
        ∀ reader : CalendarReader, reader.Documented →
          ∃ w', t.extractBy reader r' = .ok w' ∧ w'.toInt = t.unit.exact n) := by
  have hextract : ∀ {r' : Record} {n' : Int64}, r'.path t.field = .integer n' →
      t.extract r' = .ok (t.ofAmount (.ofWord n')) := by
    intro r' n' hr'
    rw [extract, extractBy, hr']
  refine ⟨_, hextract hr, t.reads_ofAmount n, ?_, ?_⟩
  · intro r' n' hr' hle
    exact ⟨_, hextract hr', t.ofAmount_mono hle⟩
  · intro r' d hd hmillis hr'
    have hread : ∀ reader : CalendarReader, reader.Documented →
        ∃ w', t.extractBy reader r' = .ok w' ∧ w'.toInt = t.unit.exact n := by
      intro reader hreader
      obtain ⟨w, hw, hfloor⟩ := extractBy_dateTime hreader t hd hr'
      refine ⟨w, hw, hfloor.trans ?_⟩
      rw [hmillis, TimeUnit.exact, ← Rat.floor_intCast_div_natCast]
      push_cast
      rfl
    exact ⟨hread Moment.reader Moment.reader_documented, hread⟩

/-- A nanosecond before 1970 belongs to the millisecond before.  The text says so, but the integer
    is found to be in the first millisecond of 1970. -/
theorem extract_integer_negative :
    let t : EventTime := ⟨"t", .nanosecond⟩
    (∃ w, t.extract ⟨[("t", .integer (-1))]⟩ = .ok w ∧ w.toInt ≠ -1) ∧
      ∃ w, t.extract ⟨[("t", .text "1969-12-31T23:59:59.999999999Z")]⟩ = .ok w ∧
        w.toInt = -1 := by
  intro t
  obtain ⟨w, hw, hreads, -, htext⟩ := t.extract_integer (r := ⟨[("t", .integer (-1))]⟩) (n := -1)
    (by with_unfolding_all rfl)
  have hexact : t.unit.exact (-1) = -1 := by decide
  refine ⟨⟨w, hw, fun hfound => ?_⟩, ?_⟩
  · have hiff := hreads.fine (by decide) (by decide)
    rw [hexact, hfound] at hiff
    exact absurd (hiff.1 rfl) (by decide)
  · let d : DateTime :=
      { year := 1969, month := 12, day := 31, separator := 'T', hour := 23, minute := 59,
        second := 59, fraction := List.replicate 9 '9', zone := .universal 'Z' }
    have hd : d.Valid := by
      have hdigits : ∀ c ∈ d.fraction, c.isDigit = true := fun c hc => by
        rw [List.eq_of_mem_replicate hc]
        rfl
      refine ⟨?_, ?_, ?_, Or.inl rfl, ?_, ?_, ?_, hdigits, Or.inl rfl⟩ <;> decide +kernel
    have hrender : String.ofList d.render = "1969-12-31T23:59:59.999999999Z" := by
      decide +kernel
    have hmillis : d.millis = (-1 : Int64).toInt * t.unit.factor / t.unit.divisor := by
      have hseconds : d.seconds = -1 := by decide
      have hfraction : Numeral.ofDigits d.fraction = 999999999 := by decide
      have hone : (-1 : Int64).toInt = -1 := by decide
      rw [DateTime.millis, hseconds, hfraction, hone]
      norm_num [t, d, TimeUnit.factor, TimeUnit.divisor]
    rw [← hexact]
    exact (htext hd hmillis (by rw [hrender]; with_unfolding_all rfl)).2 Moment.reader
      Moment.reader_documented

end EventTime

end StreamSql
