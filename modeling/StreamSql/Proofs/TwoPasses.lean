/-
  Running moments are those of two passes.

  Over the rational numbers, the moments kept up to date one value at a time are the number of the
  values, their mean, and the sum of the squared deviations from this mean.  The step mixes the old
  mean with the new one; what it keeps is that `squares` falls short of the sum of the squares by
  `count · mean²` (`Sums`).

  * `arithmeticMean xs`, `deviations xs`: the first pass over the values, and the second one;
  * `Sums.add`, `sums_ofList`: one value more, and a list of values;
  * `Checked`: numbers among which a quotient by zero is none; `Moments.ofList_map`: no step divides
    by zero;
  * `Statistic`: AVG, VAR_POP and VARIANCE as functions of the moments and of the values;
  * `Statistic.of_two_passes`: what these aggregates give.
-/
import Mathlib.Algebra.Order.BigOperators.Group.List
import Mathlib.Algebra.Order.Field.Rat
import Mathlib.Data.List.Induction
import Mathlib.Tactic.LinearCombination
import Mathlib.Tactic.NormNum
import Mathlib.Tactic.Ring
import StreamSql.Proofs.Lookup

namespace StreamSql

/-- The mean of the values. -/
def arithmeticMean (xs : List ℚ) : ℚ :=
  xs.sum / xs.length

/-- The sum of the squared deviations of the values from their mean. -/
def deviations (xs : List ℚ) : ℚ :=
  (xs.map fun x => (x - arithmeticMean xs) ^ 2).sum

theorem deviations_nonneg (xs : List ℚ) : 0 ≤ deviations xs := by
  refine List.sum_nonneg fun d hd => ?_
  obtain ⟨x, -, rfl⟩ := List.mem_map.1 hd
  exact sq_nonneg _

/-- The squared deviations from any number. -/
theorem sum_sq_sub (xs : List ℚ) (m : ℚ) :
    (xs.map fun x => (x - m) ^ 2).sum =
      (xs.map (· ^ 2)).sum - 2 * m * xs.sum + xs.length * m ^ 2 := by
  induction xs with
  | nil => simp
  | cons x xs ih =>
    simp only [List.map_cons, List.sum_cons, List.length_cons, ih]
    push_cast
    ring

theorem length_mul_arithmeticMean (xs : List ℚ) : xs.length * arithmeticMean xs = xs.sum := by
  rcases eq_or_ne xs [] with rfl | hne
  · simp [arithmeticMean]
  · have hlength : (xs.length : ℚ) ≠ 0 := by simpa using hne
    exact mul_div_cancel₀ _ hlength

theorem deviations_eq (xs : List ℚ) :
    deviations xs = (xs.map (· ^ 2)).sum - xs.length * arithmeticMean xs ^ 2 := by
  rw [deviations, sum_sq_sub]
  linear_combination 2 * arithmeticMean xs * length_mul_arithmeticMean xs

namespace Moments

/-- The moments say what the values sum up to, and their squares. -/
structure Sums (m : Moments ℚ) (xs : List ℚ) : Prop where
  count : m.count = xs.length
  values : m.count * m.mean = xs.sum
  squares : m.squares + m.count * m.mean ^ 2 = (xs.map (· ^ 2)).sum

theorem sums_empty : Sums empty [] :=
  ⟨rfl, by simp [empty], by simp [empty]⟩

/-- **One value more.** -/
theorem Sums.add {m : Moments ℚ} {xs : List ℚ} (h : Sums m xs) (x : ℚ) :
    Sums (m.add x) (xs ++ [x]) := by
  have hcount : ((m.count + 1 : ℕ) : ℚ) ≠ 0 := by exact_mod_cast m.count.succ_ne_zero
  -- the new mean, multiplied by the new number of values
  have hmean : ((m.count + 1 : ℕ) : ℚ) * (m.mean + (x - m.mean) / ((m.count + 1 : ℕ) : ℚ)) =
      m.count * m.mean + x := by
    rw [mul_add, mul_div_cancel₀ _ hcount]
    push_cast
    ring
  refine ⟨by simp [Moments.add, h.count], ?_, ?_⟩
  · simp only [Moments.add, List.sum_append, List.sum_singleton, ← h.values]
    exact hmean
  · simp only [Moments.add, List.map_append, List.sum_append, List.map_singleton,
      List.sum_singleton, ← h.squares]
    generalize m.mean + (x - m.mean) / ((m.count + 1 : ℕ) : ℚ) = mean at hmean ⊢
    push_cast at hmean ⊢
    linear_combination (mean + m.mean) * hmean

theorem ofList_concat (xs : List ℚ) (x : ℚ) : ofList (xs ++ [x]) = (ofList xs).add x := by
  simp [ofList]

/-- A list of values. -/
theorem sums_ofList (xs : List ℚ) : Sums (ofList xs) xs := by
  induction xs using List.reverseRecOn with
  | nil => exact sums_empty
  | append_singleton xs x ih =>
    rw [ofList_concat]
    exact ih.add x

/-- **The moments of a list** are those of two passes over it. -/
theorem ofList_eq (xs : List ℚ) : ofList xs = ⟨xs.length, arithmeticMean xs, deviations xs⟩ := by
  obtain ⟨hcount, hvalues, hsquares⟩ := sums_ofList xs
  rcases eq_or_ne xs [] with rfl | hne
  · simp [ofList, empty, arithmeticMean, deviations]
  · have hlength : (xs.length : ℚ) ≠ 0 := by simpa using hne
    rw [hcount] at hvalues hsquares
    have hmean : (ofList xs).mean = arithmeticMean xs := by
      rw [arithmeticMean, eq_div_iff hlength, mul_comm, hvalues]
    rw [hmean] at hsquares
    have hdeviations : (ofList xs).squares = deviations xs := by
      rw [deviations_eq, ← hsquares, add_sub_cancel_right]
    rw [← hcount, ← hmean, ← hdeviations]

theorem ofList_perm {xs ys : List ℚ} (h : ys.Perm xs) : ofList ys = ofList xs := by
  have hmean : arithmeticMean ys = arithmeticMean xs := by
    rw [arithmeticMean, arithmeticMean, h.sum_eq, h.length_eq]
  have hdeviations : deviations ys = deviations xs := by
    rw [deviations, deviations, hmean]
    exact (h.map _).sum_eq
  rw [ofList_eq, ofList_eq, hmean, hdeviations, h.length_eq]

end Moments

/-! ## Division -/

/-- A rational number, or none behind a division by zero. -/
structure Checked where
  value? : Option ℚ

namespace Checked

/-- A number. -/
def of (x : ℚ) : Checked := ⟨some x⟩

/-- An operation on two numbers, which need not have a result. -/
def apply₂ (f : ℚ → ℚ → Option ℚ) (x y : Checked) : Checked :=
  ⟨x.value?.bind fun a => y.value?.bind fun b => f a b⟩

instance : Add Checked := ⟨apply₂ fun a b => some (a + b)⟩

instance : Sub Checked := ⟨apply₂ fun a b => some (a - b)⟩

instance : Mul Checked := ⟨apply₂ fun a b => some (a * b)⟩

instance : Div Checked := ⟨apply₂ fun a b => if b = 0 then none else some (a / b)⟩

instance : NatCast Checked := ⟨fun n => of n⟩

theorem of_add (x y : ℚ) : of x + of y = of (x + y) := rfl

theorem of_sub (x y : ℚ) : of x - of y = of (x - y) := rfl

theorem of_mul (x y : ℚ) : of x * of y = of (x * y) := rfl

theorem of_div (x : ℚ) {y : ℚ} (hy : y ≠ 0) : of x / of y = of (x / y) :=
  congrArg Checked.mk (if_neg hy)

theorem of_natCast (n : ℕ) : (n : Checked) = of n := rfl

end Checked

namespace Moments

theorem count_foldl_add (xs : List Double) (m : Moments Double) :
    (xs.foldl add m).count = m.count + xs.length := by
  induction xs generalizing m with
  | nil => rfl
  | cons x xs ih =>
    rw [List.foldl_cons, ih, count_add, List.length_cons]
    omega

/-- The moments in other numbers. -/
def map {α β : Type} (f : α → β) (m : Moments α) : Moments β :=
  ⟨m.count, f m.mean, f m.squares⟩

open Checked

theorem map_add (m : Moments ℚ) (x : ℚ) : (m.map of).add (of x) = (m.add x).map of := by
  have hcount : ((m.count + 1 : ℕ) : ℚ) ≠ 0 := by exact_mod_cast m.count.succ_ne_zero
  simp only [map, add, of_natCast, of_sub, of_div _ hcount, of_add, of_mul]

/-- **No step divides by zero.** -/
theorem ofList_map (xs : List ℚ) : ofList (xs.map of) = (ofList xs).map of := by
  induction xs using List.reverseRecOn with
  | nil => rfl
  | append_singleton xs x ih =>
    rw [ofList_concat, ← map_add, ← ih]
    simp [ofList]

end Moments

/-! ## The aggregates -/

/-- The aggregates of running moments. -/
inductive Statistic where
  | average | population | sample
  deriving DecidableEq, Repr

namespace Statistic

/-- The name of the aggregate. -/
def name : Statistic → String
  | average => "AVG"
  | population => "VAR_POP"
  | sample => "VARIANCE"

/-- The number of values that the aggregate needs. -/
def least : Statistic → Nat
  | average | population => 1
  | sample => 2

/-- The aggregate of two passes over the values. -/
def ofValues (xs : List ℚ) : Statistic → ℚ
  | average => arithmeticMean xs
  | population => deviations xs / xs.length
  | sample => deviations xs / (xs.length - 1)

section
variable {α : Type} [Add α] [Sub α] [Mul α] [Div α] [NatCast α]

/-- The aggregate of the moments, if there are enough values. -/
def ofMoments? (m : Moments α) : Statistic → Option α
  | average => m.mean?
  | population => m.variance? false
  | sample => m.variance? true

end

/-- An accumulator with these moments. -/
def accumulator (m : Moments Double) : Statistic → Accumulator
  | average => .average m
  | population => .dispersion false false m
  | sample => .dispersion true false m

/-- The moments over exact numbers give the aggregate of two passes, once there are enough
    values. -/
theorem ofMoments?_ofList (st : Statistic) (xs : List ℚ) :
    st.ofMoments? (Moments.ofList xs) =
      if xs.length < st.least then none else some (st.ofValues xs) := by
  rw [Moments.ofList_eq]
  cases st with
  | average | population =>
    simp only [ofMoments?, Moments.mean?, Moments.variance?, least, ofValues, Nat.lt_one_iff,
      Bool.false_eq_true, if_false]
  | sample =>
    simp only [ofMoments?, Moments.variance?, ofValues, if_true]
    by_cases h : xs.length < sample.least
    · have hfew : xs.length < 2 := h
      simp [h, hfew]
    · have hmany : ¬ xs.length < 2 := h
      rw [if_neg h, if_neg (by omega), if_neg hmany, Nat.cast_sub (by omega), Nat.cast_one]

theorem ofValues_nonneg {st : Statistic} (hst : st ≠ average) {xs : List ℚ}
    (h : st.least ≤ xs.length) : 0 ≤ st.ofValues xs := by
  have hone : (1 : ℚ) ≤ xs.length := by
    have hleast : 1 ≤ st.least := by cases st <;> decide
    exact_mod_cast hleast.trans h
  cases st with
  | average => exact absurd rfl hst
  | population => exact div_nonneg (deviations_nonneg xs) (by linarith)
  | sample => exact div_nonneg (deviations_nonneg xs) (by linarith)

/-- No aggregate divides by zero. -/
theorem ofMoments?_map (st : Statistic) (m : Moments ℚ) :
    st.ofMoments? (m.map Checked.of) = (st.ofMoments? m).map Checked.of := by
  have hquotient : ∀ n : ℕ, n ≠ 0 → ∀ x : ℚ, Checked.of x / (n : Checked) = Checked.of (x / n) :=
    fun n hn x => Checked.of_div x (by exact_mod_cast hn)
  cases st with
  | average =>
    change (if m.count = 0 then none else some (Checked.of m.mean)) =
      (if m.count = 0 then none else some m.mean).map Checked.of
    split <;> rfl
  | population =>
    change (if m.count = 0 then none else some (Checked.of m.squares / (m.count : Checked))) =
      (if m.count = 0 then none else some (m.squares / m.count)).map Checked.of
    split
    · rfl
    · next h => rw [hquotient _ h, Option.map_some]
  | sample =>
    change (if m.count = 0 then none else if m.count < 2 then none
        else some (Checked.of m.squares / ((m.count - 1 : ℕ) : Checked))) =
      (if m.count = 0 then none else if m.count < 2 then none
        else some (m.squares / ((m.count - 1 : ℕ) : ℚ))).map Checked.of
    split
    · rfl
    · split
      · rfl
      · next h => rw [hquotient _ (by omega), Option.map_some]

/-- A value that is offered is folded in if it has a numeric reading. -/
theorem offer_accumulator (st : Statistic) (m : Moments Double) (v : Value) :
    (st.accumulator m).offer v = st.accumulator (v.float?.toList.foldl Moments.add m) := by
  have hadd : (st.accumulator m).add v =
      (Accumulator.numericInput v >>= fun x => .ok (st.accumulator (m.add x))) := by
    cases st <;> rfl
  rw [Accumulator.offer, hadd, Accumulator.numericInput]
  cases hv : v.float? with
  | none =>
    split
    · rfl
    · rfl
  | some x =>
    have hnull : ¬ v.isNull = true := by
      rw [Value.isNull_iff]
      rintro rfl
      cases hv
    rw [if_neg hnull]
    rfl

theorem foldl_offer (st : Statistic) (values : List Value) (m : Moments Double) :
    values.foldl Accumulator.offer (st.accumulator m) =
      st.accumulator ((values.filterMap Value.float?).foldl Moments.add m) := by
  induction values generalizing m with
  | nil => rfl
  | cons v rest ih =>
    rw [List.foldl_cons, offer_accumulator, ih]
    cases hv : v.float? <;> simp [hv]

theorem result_accumulator (st : Statistic) (m : Moments Double) :
    (st.accumulator m).result = Accumulator.floatOrNull (st.ofMoments? m) := by
  cases st <;> rfl

/-- The aggregate is NULL exactly for fewer values than it needs. -/
theorem result_eq_null_iff (st : Statistic) (m : Moments Double) :
    (st.accumulator m).result = .null ↔ m.count < st.least := by
  have hnull : ∀ x? : Option Double, Accumulator.floatOrNull x? = .null ↔ x? = none := by
    rintro (_ | x) <;> simp [Accumulator.floatOrNull]
  rw [result_accumulator, hnull]
  cases st with
  | average | population => simp [ofMoments?, Moments.mean?, Moments.variance?, least]
  | sample =>
    simp only [ofMoments?, Moments.variance?, least, if_true]
    split_ifs <;> simp <;> omega

/-- The aggregate is found under its name. -/
theorem aggregate?_name (st : Statistic) (time : Int64) :
    ∃ f, (Registry.standard time).aggregate? st.name = some f ∧
      f.create [] = .ok (st.accumulator .empty) := by
  have hlisted : ∃ aliases category, 
      Catalog.aggregate st.name aliases category 1 (st.accumulator .empty) ∈
        Catalog.aggregates := by
    cases st
    · exact ⟨[], .aggregate, by simp [Catalog.aggregates, name, accumulator]⟩
    · exact ⟨[], .statistical, by simp [Catalog.aggregates, name, accumulator]⟩
    · exact ⟨["VAR_SAMP"], .statistical, by simp [Catalog.aggregates, name, accumulator]⟩
  obtain ⟨aliases, category, hmem⟩ := hlisted
  exact ⟨_, Registry.aggregate?_standard time hmem rfl List.mem_cons_self rfl, rfl⟩

/-- **The aggregates of running moments** are those of two passes over the values.

    Over exact numbers, the moments of any list of values are their number, their mean and the sum
    of their squared deviations from it, whatever the order of the values, and no step divides by
    zero (the same steps succeed where a quotient by zero is none).  Of these moments AVG, VAR_POP
    and VARIANCE are what their definitions say; they are NULL exactly for fewer values than they
    need, and the variances are never negative.

    The aggregates of queries are these functions of the moments of the values that have a numeric
    reading, in floats, and NULL in the same cases. -/
theorem of_two_passes :
    (∀ xs : List ℚ,
      Moments.ofList xs = ⟨xs.length, arithmeticMean xs, deviations xs⟩ ∧
      (∀ ys, ys.Perm xs → Moments.ofList ys = Moments.ofList xs) ∧
      Moments.ofList (xs.map Checked.of) = (Moments.ofList xs).map Checked.of ∧
      ∀ st : Statistic,
        st.ofMoments? (Moments.ofList xs) =
          (if xs.length < st.least then none else some (st.ofValues xs)) ∧
        (∀ ys, ys.Perm xs →
          st.ofMoments? (Moments.ofList ys) = st.ofMoments? (Moments.ofList xs)) ∧
        st.ofMoments? (Moments.ofList (xs.map Checked.of)) =
          (st.ofMoments? (Moments.ofList xs)).map Checked.of ∧
        ∀ x, st ≠ average → st.ofMoments? (Moments.ofList xs) = some x → 0 ≤ x) ∧
    ∀ (st : Statistic) (time : Int64) (values : List Value), ∃ f start,
      (Registry.standard time).aggregate? st.name = some f ∧ f.create [] = .ok start ∧
      (values.foldl Accumulator.offer start).result =
        Accumulator.floatOrNull (st.ofMoments? (Moments.ofList (values.filterMap Value.float?))) ∧
      ((values.foldl Accumulator.offer start).result = .null ↔
        (values.filterMap Value.float?).length < st.least) := by
  refine ⟨fun xs => ⟨Moments.ofList_eq xs, fun ys h => Moments.ofList_perm h,
    Moments.ofList_map xs, fun st => ⟨ofMoments?_ofList st xs, fun ys h => ?_, ?_, ?_⟩⟩, ?_⟩
  · rw [Moments.ofList_perm h]
  · rw [Moments.ofList_map, ofMoments?_map]
  · intro x hst hx
    rw [ofMoments?_ofList] at hx
    split at hx
    · cases hx
    · next hlen =>
      cases hx
      exact ofValues_nonneg hst (Nat.le_of_not_lt hlen)
  · intro st time values
    obtain ⟨f, hf, hcreate⟩ := aggregate?_name st time
    refine ⟨f, _, hf, hcreate, ?_, ?_⟩
    · rw [foldl_offer, result_accumulator]
      rfl
    · rw [foldl_offer, result_eq_null_iff, Moments.count_foldl_add]
      simp [Moments.empty]

/-- Eight values with the mean 5, and the same values in the other order. -/
theorem of_two_passes_eight :
    let xs : List ℚ := [2, 4, 4, 4, 5, 5, 7, 9]
    average.ofMoments? (Moments.ofList xs) = some 5 ∧
      population.ofMoments? (Moments.ofList xs) = some 4 ∧
      sample.ofMoments? (Moments.ofList xs.reverse) = some (32 / 7) ∧ (0 : ℚ) ≤ 32 / 7 := by
  intro xs
  have hmean : arithmeticMean xs = 5 := by norm_num [xs, arithmeticMean]
  have hdeviations : deviations xs = 32 := by norm_num [xs, deviations, hmean]
  have hlength : xs.length = 8 := rfl
  obtain ⟨-, -, -, hstatistics⟩ := of_two_passes.1 xs
  have hsample : sample.ofMoments? (Moments.ofList xs) = some (32 / 7) := by
    rw [(hstatistics sample).1, hlength, if_neg (by decide), ofValues, hdeviations, hlength]
    norm_num
  refine ⟨?_, ?_, ?_, ?_⟩
  · rw [(hstatistics average).1, hlength, if_neg (by decide), ofValues, hmean]
  · rw [(hstatistics population).1, hlength, if_neg (by decide), ofValues, hdeviations, hlength]
    norm_num
  · rw [(hstatistics sample).2.1 _ xs.reverse_perm, hsample]
  · exact (hstatistics sample).2.2.2 _ (by decide) hsample

end Statistic

end StreamSql
