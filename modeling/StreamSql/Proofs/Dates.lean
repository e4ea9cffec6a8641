/-
  Dates and times that are written by RFC 3339.

  What reads such texts is a parameter (`CalendarReader`).  It is taken to count the nanoseconds of
  a time from its days, which are those since the beginning of 1970, and to round them down to
  milliseconds.

  * `Moment.CountsDays days`: the days are counted one by one from the beginning of 1970; there is
    one such count only (`Moment.CountsDays.eq`);
  * `DateTime`: the parts of a text, `DateTime.render` the text, and `DateTime.millis` the exact
    time in milliseconds;
  * `CalendarReader.Clock.Documented`: the reader reads those texts by this count;
  * `DateTime.readRfc3339_render`, `Moment.reader_documented`: there is such a reader;
  * `EventTime.extractBy_dateTime`: the event time of a text is its time, rounded down.
-/
import Mathlib.Data.Rat.Floor
import Mathlib.Tactic.IntervalCases
import StreamSql.Proofs.Numerals
import StreamSql.Time.EventTime

namespace StreamSql

/-! ## Days -/

namespace Moment

/-- The day behind a day. -/
def nextDay (year : ℤ) (month day : ℕ) : ℤ × ℕ × ℕ :=
  if day < daysInMonth year month then (year, month, day + 1)
  else if month < 12 then (year, month + 1, 1)
  else (year + 1, 1, 1)

theorem daysFromEpoch_epoch : daysFromEpoch 1970 1 1 = 0 := by decide

theorem isLeap_iff {year : ℤ} :
    isLeap year = true ↔ year % 4 = 0 ∧ (year % 100 ≠ 0 ∨ year % 400 = 0) := by
  simp [isLeap]

theorem daysInMonth_le (year : ℤ) (month : ℕ) : daysInMonth year month ≤ 31 := by
  unfold daysInMonth
  split
  · split <;> decide
  all_goals decide

theorem daysFromEpoch_succ (year : ℤ) (month day : ℕ) :
    daysFromEpoch year month (day + 1) = daysFromEpoch year month day + 1 := by
  simp only [daysFromEpoch]
  omega

/-- The month behind a month that is not the last one. -/
theorem daysFromEpoch_month (year : ℤ) {month : ℕ} (hfirst : 1 ≤ month) (hlast : month < 12) :
    daysFromEpoch year (month + 1) 1 = daysFromEpoch year month (daysInMonth year month) + 1 := by
  interval_cases month
  case «2» =>
    -- the leap day, which is the last day of a year that begins in March
    by_cases hleap : isLeap year = true
    · have hyear := isLeap_iff.1 hleap
      norm_num [daysFromEpoch, daysInMonth, hleap]
      omega
    · have hyear := mt isLeap_iff.2 hleap
      norm_num [daysFromEpoch, daysInMonth, hleap]
      omega
  all_goals
    simp only [daysFromEpoch, daysInMonth]
    omega

/-- There is such a day. -/
structure IsDate (year : ℤ) (month day : ℕ) : Prop where
  isMonth : 1 ≤ month ∧ month ≤ 12
  isDay : 1 ≤ day ∧ day ≤ daysInMonth year month

/-- **A day later is one day more.** -/
theorem daysFromEpoch_next {year : ℤ} {month day : ℕ} (h : IsDate year month day) :
    daysFromEpoch (nextDay year month day).1 (nextDay year month day).2.1
      (nextDay year month day).2.2 = daysFromEpoch year month day + 1 := by
  obtain ⟨hmonth, hday⟩ := h
  unfold nextDay
  split
  · exact daysFromEpoch_succ year month day
  · obtain rfl : day = daysInMonth year month := by omega
    split
    · next hlast => exact daysFromEpoch_month year hmonth.1 hlast
    · obtain rfl : month = 12 := by omega
      simp only [daysFromEpoch, daysInMonth]
      omega

/-- The days are counted one by one from the beginning of 1970. -/
structure CountsDays (days : ℤ → ℕ → ℕ → ℤ) : Prop where
  epoch : days 1970 1 1 = 0
  next : ∀ {year : ℤ} {month day : ℕ}, IsDate year month day →
    days (nextDay year month day).1 (nextDay year month day).2.1 (nextDay year month day).2.2 =
      days year month day + 1

theorem countsDays_daysFromEpoch : CountsDays daysFromEpoch :=
  ⟨daysFromEpoch_epoch, daysFromEpoch_next⟩

/-- What is told of the days does not change from one to the next. -/
def Steady (f : ℤ → ℕ → ℕ → ℤ) : Prop :=
  ∀ {year : ℤ} {month day : ℕ}, IsDate year month day →
    f (nextDay year month day).1 (nextDay year month day).2.1 (nextDay year month day).2.2 =
      f year month day

theorem one_le_daysInMonth (year : ℤ) (month : ℕ) : 1 ≤ daysInMonth year month := by
  unfold daysInMonth
  split
  · split <;> decide
  all_goals decide

namespace Steady

variable {f : ℤ → ℕ → ℕ → ℤ} {year : ℤ} {month day : ℕ}

/-- It is the same within a month, -/
theorem eq_first_day (h : Steady f) (hdate : IsDate year month day) :
    f year month day = f year month 1 := by
  obtain ⟨hmonth, hfirst, hlast⟩ := hdate
  induction day, hfirst using Nat.le_induction with
  | base => rfl
  | succ day hfirst ih =>
    have hday := h ⟨hmonth, hfirst, Nat.le_of_succ_le hlast⟩
    rw [nextDay, if_pos (Nat.lt_of_succ_le hlast)] at hday
    exact hday.trans (ih (Nat.le_of_succ_le hlast))

/-- within a year, -/
theorem eq_first_month (h : Steady f) (hmonth : 1 ≤ month ∧ month ≤ 12) :
    f year month 1 = f year 1 1 := by
  obtain ⟨hfirst, hlast⟩ := hmonth
  induction month, hfirst using Nat.le_induction with
  | base => rfl
  | succ month hfirst ih =>
    have hend : IsDate year month (daysInMonth year month) :=
      ⟨⟨hfirst, Nat.le_of_succ_le hlast⟩, one_le_daysInMonth year month, le_rfl⟩
    have hday := h hend
    rw [nextDay, if_neg (lt_irrefl _), if_pos (Nat.lt_of_succ_le hlast)] at hday
    exact (hday.trans (h.eq_first_day hend)).trans (ih hend.isMonth.2)

/-- and in all years. -/
theorem eq_epoch (h : Steady f) (hdate : IsDate year month day) :
    f year month day = f 1970 1 1 := by
  have hstep : ∀ year, f (year + 1) 1 1 = f year 1 1 := by
    intro year
    have hend : IsDate year 12 (daysInMonth year 12) :=
      ⟨by decide, one_le_daysInMonth year 12, le_rfl⟩
    have hday := h hend
    rw [nextDay, if_neg (lt_irrefl _), if_neg (lt_irrefl _)] at hday
    exact (hday.trans (h.eq_first_day hend)).trans (h.eq_first_month hend.isMonth)
  have hyears : ∀ year, f year 1 1 = f 1970 1 1 := by
    intro year
    induction year using Int.inductionOn' (b := 1970) with
    | zero => rfl
    | succ year _ ih => exact (hstep year).trans ih
    | pred year _ ih =>
      have hyear := hstep (year - 1)
      rw [Int.sub_add_cancel] at hyear
      exact hyear.symm.trans ih
  rw [h.eq_first_day hdate, h.eq_first_month hdate.isMonth, hyears]

end Steady

/-- **Days are counted in one way only.** -/
theorem CountsDays.eq {days days' : ℤ → ℕ → ℕ → ℤ} (h : CountsDays days) (h' : CountsDays days')
    {year : ℤ} {month day : ℕ} (hdate : IsDate year month day) :
    days year month day = days' year month day := by
  have hsteady : Steady fun y m d => days y m d - days' y m d := fun hdate => by
    simp only [h.next hdate, h'.next hdate, add_sub_add_right_eq_sub]
  have hsame := hsteady.eq_epoch hdate
  simp only [h.epoch, h'.epoch, sub_self] at hsame
  exact sub_eq_zero.1 hsame

end Moment

/-! ## Numbers of a fixed width -/

/-- The last digits of a number, as many as there is room for. -/
def digits : ℕ → ℕ → List Char
  | 0, _ => []
  | width + 1, n => digits width (n / 10) ++ [Nat.digitChar (n % 10)]

theorem length_digits (width n : ℕ) : (digits width n).length = width := by
  induction width generalizing n with
  | zero => rfl
  | succ width ih => rw [digits, List.length_append, ih, List.length_singleton]

theorem isDigit_digits {width n : ℕ} : ∀ c ∈ digits width n, c.isDigit = true := by
  induction width generalizing n with
  | zero => exact nofun
  | succ width ih =>
    intro c hc
    rcases List.mem_append.1 hc with hc | hc
    · exact ih c hc
    · rw [List.mem_singleton.1 hc, Nat.isDigit_digitChar]
      exact decide_eq_true (Nat.mod_lt _ (by decide))

theorem ofDigits_append (cs ds : List Char) :
    Numeral.ofDigits (cs ++ ds) = 10 ^ ds.length * Numeral.ofDigits cs + Numeral.ofDigits ds :=
  (Nat.ofDigitChars_append 0).trans Nat.ofDigitChars_eq_ofDigitChars_zero

/-- The digits of a number that there is room for spell it. -/
theorem ofDigits_digits {width n : ℕ} (h : n < 10 ^ width) :
    Numeral.ofDigits (digits width n) = n := by
  induction width generalizing n with
  | zero => exact (Nat.lt_one_iff.1 h).symm
  | succ width ih =>
    have hlast : Numeral.ofDigits [Nat.digitChar (n % 10)] = n % 10 := by
      have := Nat.toNat_digitChar_sub_48_of_lt_ten (Nat.mod_lt n (by decide : 0 < 10))
      simpa [Numeral.ofDigits] using this
    rw [digits, ofDigits_append, ih (by rw [Nat.pow_succ] at h; omega), hlast,
      List.length_singleton]
    omega

theorem ofDigits_lt {cs : List Char} (h : ∀ c ∈ cs, c.isDigit = true) :
    Numeral.ofDigits cs < 10 ^ cs.length := by
  induction cs using List.reverseRecOn with
  | nil => decide
  | append_singleton cs c ih =>
    have hlast : Numeral.ofDigits [c] < 10 := by
      have hc := h c (by simp)
      simp only [Char.isDigit, Bool.and_eq_true, decide_eq_true_eq, ge_iff_le,
        UInt32.le_iff_toNat_le] at hc
      change 10 * 0 + (c.val.toNat - 48) < 10
      have hnine : '9'.val.toNat = 57 := rfl
      omega
    have hcs := ih fun c hc => h c (List.mem_append_left _ hc)
    rw [ofDigits_append, List.length_append, List.length_singleton, Nat.pow_succ]
    omega

namespace Moment

/-- A number of a fixed width is read, whatever follows. -/
theorem readDigits_of_length {width : ℕ} {ds rest : List Char} (hlength : ds.length = width)
    (hpos : 0 < width) (hds : ∀ c ∈ ds, c.isDigit = true) :
    readDigits width width (ds ++ rest) = some (Numeral.ofDigits ds, rest) := by
  subst hlength
  have htake : (ds ++ rest).take ds.length = ds := List.take_left
  have hwhile : ds.takeWhile Char.isDigit = ds := List.takeWhile_eq_self_iff.2 hds
  have hne : ds ≠ [] := List.length_pos_iff.1 hpos
  simp [readDigits, htake, hwhile, hne]

theorem readDigits_digits {width n : ℕ} (rest : List Char) (hpos : 0 < width)
    (h : n < 10 ^ width) :
    readDigits width width (digits width n ++ rest) = some (n, rest) := by
  rw [readDigits_of_length (length_digits width n) hpos isDigit_digits, ofDigits_digits h]

end Moment

/-! ## Texts -/

/-- How far a local time is ahead of universal time, as a text says it. -/
inductive Zone where
  | universal (letter : Char)
  | offset (behind : Bool) (hours minutes : ℕ)

namespace Zone

/-- The letter of universal time may be a small one. -/
def Valid : Zone → Prop
  | universal letter => letter = 'Z' ∨ letter = 'z'
  | offset _ hours minutes => hours ≤ 23 ∧ minutes ≤ 59

/-- The seconds by which the local time is ahead. -/
def seconds : Zone → ℤ
  | universal _ => 0
  | offset behind hours minutes =>
    let ahead : ℤ := (hours * 60 + minutes) * 60
    if behind then -ahead else ahead

/-- The text of a zone. -/
def render : Zone → List Char
  | universal letter => [letter]
  | offset behind hours minutes =>
    (if behind then '-' else '+') :: (digits 2 hours ++ ':' :: digits 2 minutes)

end Zone

/-- A date and a time of day as a text has them: a fraction of a second has any number of digits. -/
structure DateTime where
  year : ℕ
  month : ℕ
  day : ℕ
  separator : Char
  hour : ℕ
  minute : ℕ
  second : ℕ
  fraction : List Char
  zone : Zone

namespace DateTime

/-- The parts are those of a date and a time of day; there are leap seconds. -/
structure Valid (d : DateTime) : Prop where
  year : d.year < 10000
  month : 1 ≤ d.month ∧ d.month ≤ 12
  day : 1 ≤ d.day ∧ d.day ≤ Moment.daysInMonth d.year d.month
  separator : d.separator = 'T' ∨ d.separator = 't' ∨ d.separator = ' '
  hour : d.hour ≤ 23
  minute : d.minute ≤ 59
  second : d.second ≤ 60
  fraction : ∀ c ∈ d.fraction, c.isDigit = true
  zone : d.zone.Valid

theorem Valid.isDate {d : DateTime} (h : d.Valid) : Moment.IsDate d.year d.month d.day :=
  ⟨h.month, h.day⟩

/-- The whole seconds since the beginning of 1970, given a count of the days. -/
def secondsBy (days : ℤ → ℕ → ℕ → ℤ) (d : DateTime) : ℤ :=
  ((days d.year d.month d.day * 24 + d.hour) * 60 + d.minute) * 60 + d.second - d.zone.seconds

/-- The nanoseconds since the beginning of 1970, rounded down, given a count of the days. -/
def nanosBy (days : ℤ → ℕ → ℕ → ℤ) (d : DateTime) : ℤ :=
  d.secondsBy days * 1000000000 +
    (Numeral.ofDigits d.fraction * 10 ^ 9 / 10 ^ d.fraction.length : ℕ)

/-- The whole seconds since the beginning of 1970. -/
def seconds (d : DateTime) : ℤ :=
  d.secondsBy Moment.daysFromEpoch

/-- The exact time in milliseconds since the beginning of 1970. -/
def millis (d : DateTime) : ℚ :=
  (d.seconds + Numeral.ofDigits d.fraction / 10 ^ d.fraction.length) * 1000

/-- The fraction of a second, behind a point. -/
def renderFraction (d : DateTime) : List Char :=
  if d.fraction = [] then [] else '.' :: d.fraction

/-- The text of a date and a time. -/
def render (d : DateTime) : List Char :=
  digits 4 d.year ++ '-' :: (digits 2 d.month ++ '-' :: (digits 2 d.day ++ d.separator ::
    (digits 2 d.hour ++ ':' :: (digits 2 d.minute ++ ':' :: (digits 2 d.second ++
      (d.renderFraction ++ d.zone.render))))))

end DateTime

/-! ## Reading -/

namespace Moment

/-- What follows a run of digits. -/
def Ends (rest : List Char) : Prop :=
  ∀ c ∈ rest.head?, c.isDigit = false ∧ c ≠ '.'

theorem takeWhile_digits {ds rest : List Char} (hds : ∀ c ∈ ds, c.isDigit = true)
    (hrest : Ends rest) : (ds ++ rest).takeWhile Char.isDigit = ds := by
  cases rest with
  | nil => rw [List.append_nil, List.takeWhile_eq_self_iff.2 hds]
  | cons c rest =>
    have hc := (hrest c rfl).1
    rw [List.takeWhile_append_of_pos hds, List.takeWhile_cons_of_neg (by simp [hc]),
      List.append_nil]

/-- The nine digits that count, filled up with zeros, are the nanoseconds, rounded down. -/
theorem ofDigits_take {ds : List Char} (hds : ∀ c ∈ ds, c.isDigit = true) :
    Numeral.ofDigits (ds.take 9) * 10 ^ (9 - (ds.take 9).length) =
      Numeral.ofDigits ds * 10 ^ 9 / 10 ^ ds.length := by
  rcases Nat.le_total ds.length 9 with hle | hge
  · obtain ⟨k, hk⟩ := Nat.exists_eq_add_of_le hle
    rw [List.take_of_length_le hle, show 9 - ds.length = k by omega, hk, Nat.pow_add,
      Nat.mul_comm (10 ^ ds.length), ← Nat.mul_assoc,
      Nat.mul_div_cancel _ (Nat.pow_pos (by decide))]
  · have hrest : Numeral.ofDigits (ds.drop 9) < 10 ^ (ds.drop 9).length :=
      ofDigits_lt fun c hc => hds c (List.mem_of_mem_drop hc)
    have hsplit := ofDigits_append (ds.take 9) (ds.drop 9)
    rw [List.take_append_drop] at hsplit
    have hlength : ds.length = (ds.drop 9).length + 9 := by
      rw [List.length_drop]
      omega
    rw [List.length_take_of_le hge, hsplit, hlength, Nat.pow_add, Nat.mul_div_mul_right _ _
      (Nat.pow_pos (by decide)), Nat.sub_self, Nat.pow_zero, Nat.mul_one,
      Nat.mul_add_div (Nat.pow_pos (by decide)), Nat.div_eq_of_lt hrest, Nat.add_zero]

theorem readFraction_render (d : DateTime) {rest : List Char} (hd : d.Valid) (hrest : Ends rest) :
    readFraction (d.renderFraction ++ rest) =
      some (Numeral.ofDigits d.fraction * 10 ^ 9 / 10 ^ d.fraction.length, rest) := by
  unfold DateTime.renderFraction
  split
  · next hnil =>
    have hzero : Numeral.ofDigits d.fraction * 10 ^ 9 / 10 ^ d.fraction.length = 0 := by
      rw [hnil]
      rfl
    rw [hzero, List.nil_append]
    unfold readFraction
    split
    · next c rest => exact absurd rfl (hrest '.' rfl).2
    · rfl
  · next hne =>
    have hwhile := takeWhile_digits hd.fraction hrest
    simp only [List.cons_append, readFraction, hwhile, hne, if_false, List.drop_left,
      Nat.pow_eq, ofDigits_take hd.fraction]

theorem readOffset_render {zone : Zone} (h : zone.Valid) :
    readOffset zone.render = some (zone.seconds, []) := by
  cases zone with
  | universal letter =>
    obtain rfl | rfl := h <;> rfl
  | offset behind hours minutes =>
    obtain ⟨hhours, hminutes⟩ := h
    have hread : ∀ rest, readDigits 2 2 (digits 2 hours ++ rest) = some (hours, rest) := fun rest =>
      readDigits_digits rest (by decide) (by omega)
    have hread' := @readDigits_digits 2 minutes [] (by decide) (by omega)
    rw [List.append_nil] at hread'
    cases behind <;>
      simp [Zone.render, Zone.seconds, readOffset, hread, hread', readChar, hhours, hminutes]

end Moment

namespace DateTime

variable {d : DateTime}

theorem ends_zone (h : d.zone.Valid) : Moment.Ends d.zone.render := by
  intro c hc
  cases hz : d.zone with
  | universal letter =>
    rw [hz] at h hc
    obtain rfl : letter = c := by simpa [Zone.render] using hc
    obtain rfl | rfl := h <;> exact ⟨by decide, by decide⟩
  | offset behind hours minutes =>
    rw [hz] at hc
    obtain rfl : (if behind then '-' else '+') = c := by simpa [Zone.render] using hc
    cases behind <;> exact ⟨by decide, by decide⟩

/-- The exact time, rounded down. -/
theorem floor_millis (d : DateTime) :
    ⌊d.millis⌋ = d.seconds * 1000 +
      (Numeral.ofDigits d.fraction * 10 ^ 9 / 10 ^ d.fraction.length / 1000000 : ℕ) := by
  have hmillis : d.millis = ((d.seconds * 1000 : ℤ) : ℚ) +
      ((Numeral.ofDigits d.fraction * 1000 : ℕ) : ℚ) / (10 ^ d.fraction.length : ℕ) := by
    rw [millis]
    push_cast
    ring
  have hnanos : Numeral.ofDigits d.fraction * 10 ^ 9 / 10 ^ d.fraction.length / 1000000 =
      Numeral.ofDigits d.fraction * 1000 / 10 ^ d.fraction.length := by
    rw [Nat.div_div_eq_div_mul, show 10 ^ 9 = 1000 * 1000000 from rfl, ← Nat.mul_assoc,
      Nat.mul_div_mul_right _ _ (by decide)]
  rw [hmillis, Int.floor_intCast_add, hnanos, Rat.floor_natCast_div_natCast]
  rfl

/-- Any count of the days gives the nanoseconds of which the milliseconds are those. -/
theorem nanosBy_div {days : ℤ → ℕ → ℕ → ℤ} (hdays : Moment.CountsDays days) (hd : d.Valid) :
    d.nanosBy days / 1000000 = ⌊d.millis⌋ := by
  have hseconds : d.secondsBy days = d.seconds := by
    rw [seconds, secondsBy, secondsBy, hdays.eq Moment.countsDays_daysFromEpoch hd.isDate]
  rw [floor_millis, nanosBy, hseconds]
  omega

theorem inRange_moment (hd : d.Valid) (nanos : ℕ) :
    Moment.inRange ⟨d.year, d.month, d.day, d.hour, d.minute, d.second, nanos⟩ = true := by
  obtain ⟨hyear, ⟨hmonth, hmonth'⟩, ⟨hday, hday'⟩, -, hhour, hminute, hsecond, -, -⟩ := hd
  simp only [Moment.inRange, Bool.and_eq_true, decide_eq_true_eq]
  refine ⟨⟨⟨⟨⟨⟨⟨⟨?_, ?_⟩, hmonth⟩, hmonth'⟩, hday⟩, hday'⟩, hhour⟩, hminute⟩, hsecond⟩ <;> omega

/-- **A text of RFC 3339** is read as its time, rounded down. -/
theorem readRfc3339_render (hd : d.Valid) :
    Moment.readRfc3339 (String.ofList d.render) = some (d.nanosBy Moment.daysFromEpoch) := by
  have hyear : ∀ rest, Moment.readDigits 4 4 (digits 4 d.year ++ rest) = some (d.year, rest) :=
    fun rest => Moment.readDigits_digits rest (by decide) hd.year
  have htwo : ∀ {n : ℕ}, n ≤ 60 → ∀ rest,
      Moment.readDigits 2 2 (digits 2 n ++ rest) = some (n, rest) := fun hn rest =>
    Moment.readDigits_digits rest (by decide) (by omega)
  have hday : d.day ≤ 60 := (hd.day.2.trans (Moment.daysInMonth_le _ _)).trans (by decide)
  have hseparator : ∀ rest, ((Moment.readChar 'T' (d.separator :: rest)).or
      ((Moment.readChar 't' (d.separator :: rest)).or
        (Moment.readChar ' ' (d.separator :: rest)))) = some rest := by
    intro rest
    obtain h | h | h := hd.separator <;> rw [h] <;> rfl
  have hchar : ∀ c rest, Moment.readChar c (c :: rest) = some rest := fun c rest => if_pos rfl
  have hfraction := Moment.readFraction_render d hd (ends_zone hd.zone)
  have hbind : ∀ {α β : Type} {x : Option α} {f : α → Option β} {a : α} {b : Option β},
      x = some a → f a = b → x >>= f = b := fun h h' => by rw [h]; exact h'
  unfold Moment.readRfc3339
  rw [String.toList_ofList, render]
  refine hbind (hyear _) (hbind (hchar _ _) (hbind (htwo (hd.month.2.trans (by decide)) _)
    (hbind (hchar _ _) (hbind (htwo hday _) (hbind (hseparator _) ?_)))))
  refine hbind (htwo (hd.hour.trans (by decide)) _) (hbind (hchar _ _)
    (hbind (htwo (hd.minute.trans (by decide)) _) (hbind (hchar _ _)
      (hbind (htwo hd.second _) ?_))))
  refine hbind hfraction (hbind (Moment.readOffset_render hd.zone)
    (hbind (if_pos (inRange_moment hd _)) ?_))
  rw [nanosBy, secondsBy, if_pos rfl]
  refine congrArg some ?_
  dsimp only
  ring

end DateTime

/-! ## Texts of event times -/

/-- What does not begin or end with a blank is not trimmed. -/
theorem Text.trim_ofList {cs : List Char} (hhead : ∀ c ∈ cs.head?, Text.isBlank c = false)
    (hlast : ∀ c ∈ cs.getLast?, Text.isBlank c = false) :
    Text.trim (String.ofList cs) = String.ofList cs := by
  have hdrop : ∀ {ds : List Char}, (∀ c ∈ ds.head?, Text.isBlank c = false) →
      ds.dropWhile Text.isBlank = ds := by
    intro ds hds
    cases ds with
    | nil => rfl
    | cons c ds => exact List.dropWhile_cons_of_neg (by simp [hds c rfl])
  rw [Text.trim, String.toList_ofList, Text.trimChars, hdrop hhead,
    hdrop (by rwa [List.head?_reverse]), List.reverse_reverse]

theorem isBlank_of_isDigit {c : Char} (h : c.isDigit = true) : Text.isBlank c = false := by
  simp only [Char.isDigit, Bool.and_eq_true, decide_eq_true_eq, ge_iff_le,
    UInt32.le_iff_toNat_le] at h
  have hzero : '0'.val.toNat = 48 := rfl
  have hnine : '9'.val.toNat = 57 := rfl
  refine Bool.eq_false_iff.2 fun hblank => ?_
  obtain ⟨range, hrange, hlow, hhigh⟩ := Text.CharRange.holds_iff.1 hblank
  change range.1 ≤ c.val.toNat at hlow
  change c.val.toNat ≤ range.2 at hhigh
  simp only [Text.blankRanges, List.mem_cons, List.not_mem_nil, or_false] at hrange
  rcases hrange with rfl | rfl | rfl | rfl | rfl | rfl | rfl | rfl | rfl | rfl <;>
    simp only at hlow hhigh <;> omega

/-- Digits in front of a hyphen spell no number. -/
theorem readFloat?_hyphen {ds : List Char} (hne : ds ≠ []) (hds : ∀ c ∈ ds, c.isDigit = true)
    (rest : List Char) : Numeral.readFloat? (String.ofList (ds ++ '-' :: rest)) = none := by
  have hhyphen : '-' ∈ (Text.foldAscii (String.ofList (ds ++ '-' :: rest))).toList := by
    rw [Text.foldAscii, String.toList_map]
    exact List.mem_map.2 ⟨'-', by simp, by decide⟩
  have hword : ∀ word : String, '-' ∉ word.toList →
      Text.foldAscii (String.ofList (ds ++ '-' :: rest)) ≠ word :=
    fun word hw he => hw (he ▸ hhyphen)
  have hwhile : (ds ++ '-' :: rest).takeWhile Char.isDigit = ds := by
    rw [List.takeWhile_append_of_pos hds, List.takeWhile_cons_of_neg (by decide), List.append_nil]
  have hdrop : (ds ++ '-' :: rest).dropWhile Char.isDigit = '-' :: rest := by
    rw [List.dropWhile_append_of_pos hds, List.dropWhile_cons_of_neg (by decide)]
  have hdecimal : Numeral.decimal? (ds ++ '-' :: rest) = none := by
    simp [Numeral.decimal?, hwhile, hdrop, hne, Numeral.exponent?]
  rw [Numeral.readFloat?, String.toList_ofList, Numeral.splitSign_of_digit hne hds]
  simp only [Numeral.magnitude?, hword "inf" (by decide), hword "infinity" (by decide),
    hword "nan" (by decide), or_self, if_false, hdecimal, Option.map_none]

namespace DateTime

variable {d : DateTime}

theorem digits_ne_nil {width n : ℕ} (h : 0 < width) : digits width n ≠ [] :=
  List.length_pos_iff.1 (by rwa [length_digits])

theorem not_blank_of_mem_getLast?_zone {zone : Zone} (h : zone.Valid) {c : Char}
    (hc : c ∈ zone.render.getLast?) : Text.isBlank c = false := by
  cases zone with
  | universal letter =>
    obtain rfl : letter = c := by simpa [Zone.render] using hc
    obtain rfl | rfl := h <;> decide
  | offset behind hours minutes =>
    obtain rfl : Nat.digitChar (minutes % 10) = c := by simpa [Zone.render, digits] using hc
    refine isBlank_of_isDigit ?_
    rw [Nat.isDigit_digitChar]
    exact decide_eq_true (Nat.mod_lt _ (by decide))

theorem zone_render_ne_nil (zone : Zone) : zone.render ≠ [] := by
  cases zone <;> exact List.cons_ne_nil _ _

theorem trim_render (hd : d.Valid) :
    Text.trim (String.ofList d.render) = String.ofList d.render := by
  refine Text.trim_ofList ?_ ?_
  · intro c hc
    rw [render, List.head?_append_of_ne_nil _ (digits_ne_nil (by decide))] at hc
    exact isBlank_of_isDigit (isDigit_digits c (List.mem_of_mem_head? hc))
  · intro c hc
    have hzone : d.render = (digits 4 d.year ++ '-' :: (digits 2 d.month ++ '-' ::
        (digits 2 d.day ++ d.separator :: (digits 2 d.hour ++ ':' :: (digits 2 d.minute ++ ':' ::
          (digits 2 d.second ++ d.renderFraction)))))) ++ d.zone.render := by
      simp [render]
    rw [hzone, List.getLast?_append_of_ne_nil _ (zone_render_ne_nil _)] at hc
    exact not_blank_of_mem_getLast?_zone hd.zone hc

theorem zone_seconds_bounds {zone : Zone} (h : zone.Valid) :
    -86400 ≤ zone.seconds ∧ zone.seconds ≤ 86400 := by
  cases zone with
  | universal letter => simp [Zone.seconds]
  | offset behind hours minutes =>
    obtain ⟨hhours, hminutes⟩ := h
    cases behind <;> simp only [Zone.seconds, if_true, if_false, Bool.false_eq_true] <;> omega

/-- The times of years with four digits are words. -/
theorem floor_millis_bounds (hd : d.Valid) :
    Word.least ≤ ⌊d.millis⌋ ∧ ⌊d.millis⌋ ≤ Word.greatest := by
  have hfraction : Numeral.ofDigits d.fraction * 10 ^ 9 / 10 ^ d.fraction.length < 10 ^ 9 :=
    Nat.div_lt_of_lt_mul (Nat.mul_lt_mul_of_pos_right (ofDigits_lt hd.fraction) (by decide))
  have hdays : -1000000 ≤ Moment.daysFromEpoch d.year d.month d.day ∧
      Moment.daysFromEpoch d.year d.month d.day ≤ 10000000 := by
    have hyear := hd.year
    have hday := hd.day.2.trans (Moment.daysInMonth_le d.year d.month)
    simp only [Moment.daysFromEpoch]
    split <;> omega
  have hzone := zone_seconds_bounds hd.zone
  have hhour := hd.hour
  have hminute := hd.minute
  have hsecond := hd.second
  rw [floor_millis, seconds, secondsBy]
  simp only [Word.least, Word.greatest]
  generalize Numeral.ofDigits d.fraction * 10 ^ 9 / 10 ^ d.fraction.length = nanos at *
  omega

end DateTime

/-! ## Readers -/

namespace CalendarReader

/-- The days that a reader counts, and the nanoseconds of its times. -/
structure Clock (reader : CalendarReader) where
  days : ℤ → ℕ → ℕ → ℤ
  nanos : reader.Time → ℤ

/-- The reader reads the texts of RFC 3339, and rounds the nanoseconds of a time down to
    milliseconds, if these are a word. -/
structure Clock.Documented {reader : CalendarReader} (clock : reader.Clock) : Prop where
  days : Moment.CountsDays clock.days
  rfc3339? : ∀ d : DateTime, d.Valid → ∃ time,
    reader.rfc3339? (String.ofList d.render) = some time ∧
      clock.nanos time = d.nanosBy clock.days
  millis : ∀ time, Word.least ≤ clock.nanos time / 1000000 →
    clock.nanos time / 1000000 ≤ Word.greatest →
    (reader.millis time).toInt = clock.nanos time / 1000000

/-- There is a clock by which the reader reads. -/
def Documented (reader : CalendarReader) : Prop :=
  ∃ clock : reader.Clock, clock.Documented

end CalendarReader

theorem Moment.reader_documented : Moment.reader.Documented :=
  ⟨⟨daysFromEpoch, id⟩, countsDays_daysFromEpoch,
    fun _ hd => ⟨_, DateTime.readRfc3339_render hd, rfl⟩,
    fun _ hleast hgreatest => Word.toInt_nearest_of_fits hleast hgreatest⟩

/-- **The event time of a text of RFC 3339** is its time, rounded down. -/
theorem EventTime.extractBy_dateTime {reader : CalendarReader} (hreader : reader.Documented)
    (t : EventTime) {r : Record} {d : DateTime} (hd : d.Valid)
    (hr : r.path t.field = .text (String.ofList d.render)) :
    ∃ w, t.extractBy reader r = .ok w ∧ w.toInt = ⌊d.millis⌋ := by
  obtain ⟨clock, hclock⟩ := hreader
  obtain ⟨time, htime, hnanos⟩ := hclock.rfc3339? d hd
  have hfinite : finite? (String.ofList d.render) = none := by
    rw [finite?, DateTime.render, readFloat?_hyphen (DateTime.digits_ne_nil (by decide))
      isDigit_digits, Option.filter_none]
  have hmillis : clock.nanos time / 1000000 = ⌊d.millis⌋ := by
    rw [hnanos, DateTime.nanosBy_div hclock.days hd]
  have hbounds := DateTime.floor_millis_bounds hd
  rw [← hmillis] at hbounds ⊢
  refine ⟨reader.millis time, ?_, hclock.millis time hbounds.1 hbounds.2⟩
  rw [extractBy, hr]
  simp only [ofTextBy, DateTime.trim_render hd, hfinite, CalendarReader.read?, htime,
    Option.some_or]

end StreamSql
