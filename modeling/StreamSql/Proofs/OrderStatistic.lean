/-
  Percentiles are order statistics.

  Over the rational numbers, the percentile of a list is read off its sorted values: at a whole rank
  it is the value there, and between two ranks it lies on the line between their values.  What it
  owes to its fraction is a fact about such lines (`between_mono`); what it owes to the values is a
  fact about sorted lists, in which the value at a place is at most `v` exactly if more values than
  this are (`getElem_le_iff`).

  * `between g r`: a function of the places at a rank;
  * `orderStatistic xs k`: the value at a place of the sorted values;
  * `percentile?_eq`: the percentile as the one of the other;
  * `percentile?_order_statistic`: percentiles of lists, and those of queries.
-/
import Mathlib.Algebra.Order.Floor.Semifield
import Mathlib.Data.List.GetD
import Mathlib.Data.List.Sort
import Mathlib.Data.Rat.Floor
import Mathlib.Tactic.Linarith
import StreamSql.Proofs.Lookup

namespace StreamSql

instance rankableRat : Rankable ℚ where
  below x y := x ≤ y
  less x y := x < y
  rankBelow x := ⌊x⌋₊
  rankAbove x := ⌈x⌉₊

/-! ## Between two places -/

/-- A function of the places at a rank; between two places it goes along a line. -/
def between (g : ℕ → ℚ) (r : ℚ) : ℚ :=
  g ⌊r⌋₊ + (g ⌈r⌉₊ - g ⌊r⌋₊) * (r - ⌊r⌋₊)

section

variable {g g' : ℕ → ℚ} {r r' : ℚ}

theorem between_natCast (g : ℕ → ℚ) (k : ℕ) : between g k = g k := by
  simp [between]

/-- The line goes to the next place, also from a place itself. -/
theorem between_eq (hr : 0 ≤ r) :
    between g r = g ⌊r⌋₊ + (g (⌊r⌋₊ + 1) - g ⌊r⌋₊) * (r - ⌊r⌋₊) := by
  rcases (Nat.floor_le hr).eq_or_lt with hwhole | hlt
  · rw [between, hwhole, sub_self, mul_zero, mul_zero]
  · have hnext : ⌈r⌉₊ = ⌊r⌋₊ + 1 :=
      (Nat.ceil_eq_iff (Nat.succ_ne_zero _)).2 ⟨hlt, by
        push_cast
        exact (Nat.lt_floor_add_one r).le⟩
    rw [between, hnext]

theorem between_bounds (hg : Monotone g) (hr : 0 ≤ r) :
    g ⌊r⌋₊ ≤ between g r ∧ between g r ≤ g (⌊r⌋₊ + 1) := by
  have hstep : 0 ≤ g (⌊r⌋₊ + 1) - g ⌊r⌋₊ := sub_nonneg.2 (hg (Nat.le_succ _))
  have hlow : 0 ≤ r - ⌊r⌋₊ := sub_nonneg.2 (Nat.floor_le hr)
  have hhigh : r - ⌊r⌋₊ ≤ 1 := by linarith [Nat.lt_floor_add_one r]
  rw [between_eq hr]
  constructor
  · linarith [mul_nonneg hstep hlow]
  · linarith [mul_le_of_le_one_right hstep hhigh]

/-- A greater rank has no smaller value. -/
theorem between_mono (hg : Monotone g) (hr : 0 ≤ r) (h : r ≤ r') :
    between g r ≤ between g r' := by
  have hr' := hr.trans h
  rcases (Nat.floor_mono h).eq_or_lt with hsame | hlt
  · have hstep : 0 ≤ g (⌊r'⌋₊ + 1) - g ⌊r'⌋₊ := sub_nonneg.2 (hg (Nat.le_succ _))
    rw [between_eq hr, between_eq hr', hsame]
    gcongr
  · calc between g r ≤ g (⌊r⌋₊ + 1) := (between_bounds hg hr).2
      _ ≤ g ⌊r'⌋₊ := hg hlt
      _ ≤ between g r' := (between_bounds hg hr').1

/-- A greater function has no smaller value at any rank. -/
theorem between_le_between (h : ∀ k, g k ≤ g' k) (hr : 0 ≤ r) : between g r ≤ between g' r := by
  have hlow : 0 ≤ r - ⌊r⌋₊ := sub_nonneg.2 (Nat.floor_le hr)
  have hhigh : 0 ≤ 1 - (r - ⌊r⌋₊) := by linarith [Nat.lt_floor_add_one r]
  -- the mean of the two places next to the rank, weighted by how near they are
  have hmean : ∀ g : ℕ → ℚ, between g r =
      g ⌊r⌋₊ * (1 - (r - ⌊r⌋₊)) + g (⌊r⌋₊ + 1) * (r - ⌊r⌋₊) := fun g => by
    rw [between_eq hr]
    ring
  rw [hmean, hmean]
  exact add_le_add (mul_le_mul_of_nonneg_right (h _) hhigh) (mul_le_mul_of_nonneg_right (h _) hlow)

/-- In the middle of two places is the mean of their values. -/
theorem between_half (g : ℕ → ℚ) (k : ℕ) :
    between g (k + 1 / 2) = (g k + g (k + 1)) / 2 := by
  have hr : (0 : ℚ) ≤ k + 1 / 2 := by positivity
  have hfloor : ⌊(k : ℚ) + 1 / 2⌋₊ = k :=
    (Nat.floor_eq_iff hr).2 ⟨by linarith, by linarith⟩
  rw [between_eq hr, hfloor]
  ring

end

/-! ## Sorted values -/

/-- The value at a place of a sorted list is at most `v` exactly if more values than this are. -/
theorem getElem_le_iff {s : List ℚ} (hs : s.Pairwise (· ≤ ·)) {k : ℕ} (hk : k < s.length) {v : ℚ} :
    s[k] ≤ v ↔ k < s.countP (· ≤ v) := by
  induction s generalizing k with
  | nil => cases hk
  | cons a s ih =>
    obtain ⟨ha, hs⟩ := List.pairwise_cons.1 hs
    by_cases hav : a ≤ v
    · cases k with
      | zero => simp [hav]
      | succ k =>
        rw [List.getElem_cons_succ, ih hs, List.countP_cons_of_pos (by simpa using hav)]
        omega
    · -- all values are above
      have hnone : (a :: s).countP (· ≤ v) = 0 :=
        List.countP_eq_zero.2 (List.forall_mem_cons.2
          ⟨by simpa using hav, fun b hb hbv => hav ((ha b hb).trans (by simpa using hbv))⟩)
      have hfirst : a ≤ (a :: s)[k] := by
        rcases List.mem_cons.1 (List.getElem_mem hk) with h | h
        · exact h.ge
        · exact ha _ h
      exact iff_of_false (fun h => hav (hfirst.trans h)) (by omega)

/-- Greater values leave fewer of them at most `v`. -/
theorem countP_le_of_forall₂ {xs ys : List ℚ} (h : List.Forall₂ (· ≤ ·) xs ys) (v : ℚ) :
    ys.countP (· ≤ v) ≤ xs.countP (· ≤ v) := by
  induction h with
  | nil => exact le_rfl
  | @cons x y xs ys hxy _ ih =>
    rw [List.countP_cons, List.countP_cons]
    split
    · next hy =>
      have hx : decide (x ≤ v) = true := decide_eq_true (hxy.trans (of_decide_eq_true hy))
      rw [if_pos hx]
      omega
    · omega

/-- The values in order. -/
def sorted (xs : List ℚ) : List ℚ :=
  xs.mergeSort Rankable.below

/-- The value at a place of the sorted values; beyond the last place the greatest one. -/
def orderStatistic (xs : List ℚ) (k : ℕ) : ℚ :=
  (sorted xs).getD (min k (xs.length - 1)) 0

section

variable {xs ys : List ℚ} {k : ℕ}

theorem sorted_perm (xs : List ℚ) : (sorted xs).Perm xs :=
  List.mergeSort_perm ..

@[simp]
theorem length_sorted (xs : List ℚ) : (sorted xs).length = xs.length :=
  (sorted_perm xs).length_eq

theorem pairwise_sorted (xs : List ℚ) : (sorted xs).Pairwise (· ≤ ·) :=
  List.pairwise_mergeSort' (· ≤ ·) xs

/-- There is one order of the values. -/
theorem eq_sorted (hperm : ys.Perm xs) (hs : ys.Pairwise (· ≤ ·)) : ys = sorted xs :=
  (hperm.trans (sorted_perm xs).symm).eq_of_pairwise' hs (pairwise_sorted xs)

theorem sorted_congr (h : ys.Perm xs) : sorted ys = sorted xs :=
  eq_sorted ((sorted_perm ys).trans h) (pairwise_sorted ys)

theorem place_lt (hne : xs ≠ []) (k : ℕ) : min k (xs.length - 1) < (sorted xs).length := by
  have := List.length_pos_iff.2 hne
  rw [length_sorted]
  omega

theorem orderStatistic_eq (hk : min k (xs.length - 1) < (sorted xs).length) :
    orderStatistic xs k = (sorted xs)[min k (xs.length - 1)] :=
  List.getD_eq_getElem _ _ hk

theorem getElem?_sorted (hk : k < xs.length) : (sorted xs)[k]? = some (orderStatistic xs k) := by
  have hne : xs ≠ [] := List.ne_nil_of_length_pos (by omega)
  rw [orderStatistic_eq (place_lt hne k), List.getElem?_eq_getElem (by simpa using hk)]
  congr 2
  omega

theorem orderStatistic_mem (hne : xs ≠ []) (k : ℕ) : orderStatistic xs k ∈ xs := by
  rw [orderStatistic_eq (place_lt hne k)]
  exact (sorted_perm xs).mem_iff.1 (List.getElem_mem _)

theorem exists_orderStatistic {x : ℚ} (hx : x ∈ xs) :
    ∃ k ≤ xs.length - 1, orderStatistic xs k = x := by
  obtain ⟨k, hk, rfl⟩ := List.getElem_of_mem ((sorted_perm xs).mem_iff.2 hx)
  have hlt : k < xs.length := by simpa using hk
  refine ⟨k, by omega, ?_⟩
  have hget := getElem?_sorted hlt
  rw [List.getElem?_eq_getElem hk] at hget
  exact (Option.some.inj hget).symm

theorem orderStatistic_mono (xs : List ℚ) : Monotone (orderStatistic xs) := by
  intro i j hij
  rcases eq_or_ne xs [] with rfl | hne
  · simp [orderStatistic, sorted]
  · rw [orderStatistic_eq (place_lt hne i), orderStatistic_eq (place_lt hne j)]
    exact (pairwise_sorted xs).sortedLE.getElem_le_getElem_of_le (by omega)

/-- Greater values have greater order statistics. -/
theorem orderStatistic_le (h : List.Forall₂ (· ≤ ·) xs ys) (k : ℕ) :
    orderStatistic xs k ≤ orderStatistic ys k := by
  have hlength := h.length_eq
  rcases eq_or_ne xs [] with rfl | hne
  · obtain rfl := List.forall₂_nil_left_iff.1 h
    exact le_rfl
  · have hne' : ys ≠ [] := fun hnil => hne (by simpa [hnil] using hlength)
    have hcount : min k (xs.length - 1) < (sorted ys).countP (· ≤ orderStatistic ys k) := by
      rw [hlength]
      refine (getElem_le_iff (pairwise_sorted ys) (place_lt hne' k)).1 ?_
      rw [orderStatistic_eq (place_lt hne' k)]
    rw [orderStatistic_eq (place_lt hne k)]
    refine (getElem_le_iff (pairwise_sorted xs) (place_lt hne k)).2 (hcount.trans_le ?_)
    rw [(sorted_perm xs).countP_eq, (sorted_perm ys).countP_eq]
    exact countP_le_of_forall₂ h _

end

/-! ## Percentiles -/

section

variable {xs ys : List ℚ} {p q x y : ℚ}

theorem clamp_rat (h₀ : 0 ≤ p) (h : p ≤ 1) : Rankable.clamp p = p :=
  Rankable.clamp_eq (decide_eq_false (by simpa using h₀)) (decide_eq_false (by simpa using h))

/-- **The percentile** is the order statistic at the rank; no rank lies outside the list. -/
theorem percentile?_eq (hne : xs ≠ []) (h₀ : 0 ≤ p) (h : p ≤ 1) :
    percentile? p xs = some (between (orderStatistic xs) (p * ((xs.length - 1 : ℕ) : ℚ))) := by
  have hpos := List.length_pos_iff.2 hne
  have hceil : ⌈p * ((xs.length - 1 : ℕ) : ℚ)⌉₊ ≤ xs.length - 1 :=
    Nat.ceil_le.2 (mul_le_of_le_one_left (Nat.cast_nonneg _) h)
  have hfloor := (Nat.floor_le_ceil (p * ((xs.length - 1 : ℕ) : ℚ))).trans hceil
  have hempty : xs.isEmpty = false := by simpa using hne
  generalize hrank : p * ((xs.length - 1 : ℕ) : ℚ) = rank at hceil hfloor ⊢
  have hat : percentile? p xs = atRank? (sorted xs) rank := by
    rw [← hrank, percentile?, hempty, clamp_rat h₀ h]
    rfl
  have hlow : (sorted xs)[Rankable.rankBelow rank]? = some (orderStatistic xs ⌊rank⌋₊) :=
    getElem?_sorted (show ⌊rank⌋₊ < xs.length by omega)
  have hhigh : (sorted xs)[Rankable.rankAbove rank]? = some (orderStatistic xs ⌈rank⌉₊) :=
    getElem?_sorted (show ⌈rank⌉₊ < xs.length by omega)
  rw [hat, atRank?, hlow, hhigh]
  show (if ⌊rank⌋₊ = ⌈rank⌉₊ then some _ else some _) = _
  split
  · next hsame => rw [between, ← hsame, sub_self, zero_mul, add_zero]
  · rfl

theorem percentile?_mono (hne : xs ≠ []) (h₀ : 0 ≤ p) (h : p ≤ q) (h₁ : q ≤ 1)
    (hx : percentile? p xs = some x) (hy : percentile? q xs = some y) : x ≤ y := by
  rw [percentile?_eq hne h₀ (h.trans h₁)] at hx
  rw [percentile?_eq hne (h₀.trans h) h₁] at hy
  obtain rfl := Option.some.inj hx
  obtain rfl := Option.some.inj hy
  exact between_mono (orderStatistic_mono xs) (mul_nonneg h₀ (Nat.cast_nonneg _))
    (mul_le_mul_of_nonneg_right h (Nat.cast_nonneg _))

theorem percentile?_zero (hne : xs ≠ []) : percentile? 0 xs = some (orderStatistic xs 0) := by
  rw [percentile?_eq hne le_rfl zero_le_one, zero_mul, ← Nat.cast_zero, between_natCast]

theorem percentile?_one (hne : xs ≠ []) :
    percentile? 1 xs = some (orderStatistic xs (xs.length - 1)) := by
  rw [percentile?_eq hne zero_le_one le_rfl, one_mul, between_natCast]

theorem percentile?_perm (hne : xs ≠ []) (h₀ : 0 ≤ p) (h₁ : p ≤ 1) (hperm : ys.Perm xs) :
    percentile? p ys = percentile? p xs := by
  have hne' : ys ≠ [] := fun hnil => hne (by simpa [hnil] using hperm.symm)
  have hstatistic : orderStatistic ys = orderStatistic xs := by
    funext k
    rw [orderStatistic, orderStatistic, sorted_congr hperm, hperm.length_eq]
  rw [percentile?_eq hne h₀ h₁, percentile?_eq hne' h₀ h₁, hstatistic, hperm.length_eq]

/-- Greater values have greater percentiles. -/
theorem percentile?_le (hne : xs ≠ []) (h₀ : 0 ≤ p) (h₁ : p ≤ 1) (h : List.Forall₂ (· ≤ ·) xs ys)
    (hx : percentile? p xs = some x) (hy : percentile? p ys = some y) : x ≤ y := by
  have hlength := h.length_eq
  have hne' : ys ≠ [] := fun hnil => hne (by simpa [hnil] using hlength)
  rw [percentile?_eq hne h₀ h₁] at hx
  rw [percentile?_eq hne' h₀ h₁, ← hlength] at hy
  obtain rfl := Option.some.inj hx
  obtain rfl := Option.some.inj hy
  exact between_le_between (orderStatistic_le h) (mul_nonneg h₀ (Nat.cast_nonneg _))

/-- Of an odd number of values, the one in the middle. -/
theorem percentile?_odd {k : ℕ} (hlength : xs.length = 2 * k + 1) :
    percentile? (1 / 2) xs = (sorted xs)[k]? := by
  have hne : xs ≠ [] := List.ne_nil_of_length_pos (by omega)
  have hmiddle : (1 / 2 : ℚ) * ((xs.length - 1 : ℕ) : ℚ) = (k : ℕ) := by
    rw [hlength]
    push_cast
    ring
  rw [percentile?_eq hne (by norm_num) (by norm_num), hmiddle, between_natCast,
    getElem?_sorted (by omega)]

/-- Of an even number of values, the mean of the two in the middle. -/
theorem percentile?_even {k : ℕ} (hlength : xs.length = 2 * k + 2) :
    ∃ a b, (sorted xs)[k]? = some a ∧ (sorted xs)[k + 1]? = some b ∧
      percentile? (1 / 2) xs = some ((a + b) / 2) := by
  have hne : xs ≠ [] := List.ne_nil_of_length_pos (by omega)
  have hmiddle : (1 / 2 : ℚ) * ((xs.length - 1 : ℕ) : ℚ) = (k : ℚ) + 1 / 2 := by
    rw [hlength, show 2 * k + 2 - 1 = 2 * k + 1 by omega]
    push_cast
    ring
  refine ⟨_, _, getElem?_sorted (by omega), getElem?_sorted (by omega), ?_⟩
  rw [percentile?_eq hne (by norm_num) (by norm_num), hmiddle, between_half]

end

/-! ## Percentiles of queries -/

namespace Accumulator

theorem offer_percentile (p : Double) (xs : List Double) (v : Value) :
    (percentile p xs).offer v = percentile p (xs ++ v.float?.toList) := by
  have hadd : (percentile p xs).add v =
      (numericInput v >>= fun x => .ok (percentile p (xs ++ [x]))) := rfl
  rw [offer, hadd, numericInput]
  cases hv : v.float? with
  | none =>
    rw [Option.toList_none, List.append_nil]
    split <;> rfl
  | some x =>
    have hnull : ¬ v.isNull = true := by
      rw [Value.isNull_iff]
      rintro rfl
      cases hv
    rw [if_neg hnull]
    rfl

theorem foldl_offer_percentile (p : Double) (values : List Value) (xs : List Double) :
    values.foldl offer (percentile p xs) = percentile p (xs ++ values.filterMap Value.float?) := by
  induction values generalizing xs with
  | nil => simp
  | cons v rest ih =>
    rw [List.foldl_cons, offer_percentile, ih]
    cases hv : v.float? <;> simp [hv]

end Accumulator

/-- PERCENTILE takes one fraction from 0 to 1. -/
theorem Catalog.fraction_eq_ok {parameters : List Value} {p : Double} :
    fraction parameters = .ok p ↔
      ∃ v, parameters = [v] ∧ v.float? = some p ∧ 0.0 ≤ p ∧ p ≤ 1.0 := by
  unfold fraction
  constructor
  · intro h
    split at h
    · split at h
      · split at h
        · next v _ q hq hrange =>
          cases h
          exact ⟨v, rfl, hq, hrange⟩
        · cases h
      · cases h
    · cases h
  · rintro ⟨v, rfl, hv, hrange⟩
    simp only [hv, hrange, and_self, if_true]

theorem Catalog.create_percentile {parameters : List Value} {start : Accumulator} :
    (do return .percentile (← fraction parameters) [] : Except QueryError Accumulator) = .ok start ↔
      ∃ v p, parameters = [v] ∧ v.float? = some p ∧ 0.0 ≤ p ∧ p ≤ 1.0 ∧
        start = .percentile p [] := by
  constructor
  · intro h
    obtain ⟨p, hp, hstart⟩ := bind_eq_ok.1 h
    obtain ⟨v, hv, hfloat, hlow, hhigh⟩ := fraction_eq_ok.1 hp
    cases hstart
    exact ⟨v, p, hv, hfloat, hlow, hhigh, rfl⟩
  · rintro ⟨v, p, hv, hfloat, hlow, hhigh, rfl⟩
    exact bind_eq_ok.2 ⟨p, fraction_eq_ok.2 ⟨v, hv, hfloat, hlow, hhigh⟩, rfl⟩

/-- **Percentiles are order statistics.**

    Over exact numbers, every list that is not empty has a percentile at every fraction from 0 to 1:
    no rank lies outside the list.  It lies between the smallest and the greatest value and is
    these for 0 and 1, does not depend on the order of the values, and grows with the fraction and
    with each value.  For 1/2 it is the value in the middle, or the mean of the two there.

    In queries, MEDIAN and PERCENTILE are this function of the values that have a numeric reading,
    in floats, at the fraction 0.5 or at the one parameter, which lies from 0 to 1. -/
theorem percentile?_order_statistic :
    (∀ (xs : List ℚ) (p : ℚ), xs ≠ [] → 0 ≤ p → p ≤ 1 → ∃ x, percentile? p xs = some x ∧
      (∃ least ∈ xs, ∃ greatest ∈ xs, (∀ y ∈ xs, least ≤ y ∧ y ≤ greatest) ∧
        least ≤ x ∧ x ≤ greatest ∧ (p = 0 → x = least) ∧ (p = 1 → x = greatest)) ∧
      (∀ ys : List ℚ, ys.Perm xs → percentile? p ys = some x) ∧
      (∀ q y, p ≤ q → q ≤ 1 → percentile? q xs = some y → x ≤ y) ∧
      (∀ ys y, List.Forall₂ (· ≤ ·) xs ys → percentile? p ys = some y → x ≤ y) ∧
      (p = 1 / 2 → ∀ ys : List ℚ, ys.Perm xs → ys.Pairwise (· ≤ ·) → ∀ k,
        (xs.length = 2 * k + 1 → ys[k]? = some x) ∧
        (xs.length = 2 * k + 2 →
          ∃ a b, ys[k]? = some a ∧ ys[k + 1]? = some b ∧ x = (a + b) / 2))) ∧
    ∀ time : Int64,
      (∃ f, (Registry.standard time).aggregate? "MEDIAN" = some f ∧
        f.create [] = .ok (.percentile 0.5 [])) ∧
      (∃ f, (Registry.standard time).aggregate? "PERCENTILE" = some f ∧
        ∀ parameters start, f.create parameters = .ok start ↔
          ∃ v p, parameters = [v] ∧ v.float? = some p ∧ 0.0 ≤ p ∧ p ≤ 1.0 ∧
            start = .percentile p []) ∧
      ∀ p (values : List Value), (values.foldl Accumulator.offer (.percentile p [])).result =
        Accumulator.floatOrNull (percentile? p (values.filterMap Value.float?)) := by
  constructor
  · intro xs p hne h₀ h₁
    have hmono := orderStatistic_mono xs
    have hx := percentile?_eq hne h₀ h₁
    have hfirst := percentile?_zero hne
    have hlast := percentile?_one hne
    refine ⟨_, hx, ⟨_, orderStatistic_mem hne 0, _, orderStatistic_mem hne (xs.length - 1), ?_,
      percentile?_mono hne le_rfl h₀ h₁ hfirst hx, percentile?_mono hne h₀ h₁ le_rfl hx hlast,
      ?_, ?_⟩, ?_, ?_, ?_, ?_⟩
    · intro y hy
      obtain ⟨k, hk, rfl⟩ := exists_orderStatistic hy
      exact ⟨hmono (Nat.zero_le k), hmono hk⟩
    · rintro rfl
      exact Option.some.inj (hx.symm.trans hfirst)
    · rintro rfl
      exact Option.some.inj (hx.symm.trans hlast)
    · exact fun ys hperm => (percentile?_perm hne h₀ h₁ hperm).trans hx
    · exact fun q y hpq hq hy => percentile?_mono hne h₀ hpq hq hx hy
    · exact fun ys y h hy => percentile?_le hne h₀ h₁ h hx hy
    · rintro rfl ys hperm hs k
      rw [eq_sorted hperm hs]
      constructor
      · exact fun hlength => (percentile?_odd hlength).symm.trans hx
      · intro hlength
        obtain ⟨a, b, ha, hb, hmean⟩ := percentile?_even hlength
        exact ⟨a, b, ha, hb, Option.some.inj (hx.symm.trans hmean)⟩
  · intro time
    refine ⟨⟨_, Registry.aggregate?_standard time
        (d := Catalog.aggregate "MEDIAN" [] .statistical 1 (.percentile 0.5 []))
        (by simp [Catalog.aggregates]) rfl List.mem_cons_self rfl, rfl⟩,
      ⟨_, Registry.aggregate?_standard time
        (d := ⟨"PERCENTILE", ["PERCENTILE_CONT"], .statistical, .exactly 2,
          .aggregate fun parameters => do return .percentile (← Catalog.fraction parameters) []⟩)
        (by simp [Catalog.aggregates]) rfl List.mem_cons_self rfl, fun parameters start => ?_⟩,
      fun p values => ?_⟩
    · exact Catalog.create_percentile
    · rw [Accumulator.foldl_offer_percentile]
      rfl

/-- Four values, two of which are in the middle: the median, and the percentile at 1. -/
theorem percentile?_order_statistic_four :
    let xs : List ℚ := [40, 10, 30, 20]
    xs ≠ [] ∧ (0 : ℚ) ≤ 1 / 2 ∧ (1 / 2 : ℚ) ≤ 1 ∧ percentile? (1 / 2) xs = some 25 ∧
      percentile? 1 xs = some 40 := by
  intro xs
  have hne : xs ≠ [] := List.cons_ne_nil _ _
  have h₀ : (0 : ℚ) ≤ 1 / 2 := by norm_num
  have h₁ : (1 / 2 : ℚ) ≤ 1 := by norm_num
  obtain ⟨x, hx, -, -, -, -, hmedian⟩ := percentile?_order_statistic.1 xs (1 / 2) hne h₀ h₁
  obtain ⟨y, hy, ⟨_, _, greatest, hgreatest, hall, -, -, -, hlast⟩, -⟩ :=
    percentile?_order_statistic.1 xs 1 hne zero_le_one le_rfl
  obtain ⟨a, b, ha, hb, hmean⟩ := (hmedian rfl [10, 20, 30, 40] (by decide) (by decide) 1).2 rfl
  refine ⟨hne, h₀, h₁, ?_, ?_⟩
  · cases ha
    cases hb
    rw [hx, hmean]
    norm_num
  · have hle : ∀ z ∈ xs, z ≤ 40 := by decide
    have hforty : greatest = 40 := le_antisymm (hle _ hgreatest) (hall 40 List.mem_cons_self).2
    rw [hy, hlast rfl, hforty]

end StreamSql
