/-
  Least and greatest values.

  MIN, MAX, LEAST and GREATEST keep the best value so far.  Two texts are compared as texts, and a
  text and a number as numbers, so that values can stand in a circle: 10 is not less than `'10'`,
  which is less than `'9'` as a text, which is less than 10.

  * `Value.Compares`: everything that a comparison can do;
  * `Value.Consistent`: no number stands between two texts that come in one order as numbers and
    in the other as texts;
  * `Value.Ahead`: how the best value is ahead of an earlier one, directly or by way of a text
    that spells a number;
  * `Value.better_ahead`, `Value.best_ahead`: one value more keeps the best one ahead of all
    others, and so does any number of values;
  * `Value.extrema_iff_consistent`: on consistent values, and on no others, the best value is one
    that no other value beats, in whatever order they came.
-/
import Mathlib.Order.Compare
import Mathlib.Data.String.Basic
import Mathlib.Data.List.Perm.Basic
import Mathlib.Tactic.Common
import StreamSql.Aggregate
import StreamSql.Function.Scalar

namespace StreamSql

/-! ## Directions -/

/-- In the direction `keep`, which is `lt` or `gt`, `b` does not beat `a`. -/
def Leads {α : Type} [Ord α] (keep : Ordering) (a b : α) : Prop :=
  Ord.compare b a ≠ keep

section
variable {α : Type} [LinearOrder α] {keep : Ordering} {a b c : α}

theorem compare_eq_swap_iff : Ord.compare a b = keep.swap ↔ Ord.compare b a = keep := by
  cases keep
  · exact compare_gt_iff_gt.trans compare_lt_iff_lt.symm
  · exact compare_eq_iff_eq.trans (eq_comm.trans compare_eq_iff_eq.symm)
  · exact compare_lt_iff_lt.trans compare_gt_iff_gt.symm

theorem leads_iff_compare_ne : Leads keep a b ↔ Ord.compare a b ≠ keep.swap :=
  not_congr compare_eq_swap_iff.symm

theorem leads_refl (hkeep : keep ≠ .eq) (a : α) : Leads keep a a := by
  unfold Leads
  rw [compare_eq_iff_eq.2 rfl]
  exact hkeep.symm

theorem Leads.trans (hkeep : keep ≠ .eq) (hab : Leads keep a b) (hbc : Leads keep b c) :
    Leads keep a c := by
  unfold Leads at *
  cases keep with
  | eq => exact absurd rfl hkeep
  | lt =>
    rw [compare_ge_iff_ge] at *
    exact le_trans hab hbc
  | gt =>
    rw [compare_le_iff_le] at *
    exact le_trans hbc hab

/-- An order that is in neither direction. -/
theorem eq_of_ne_swap {o : Ordering} (hkeep : keep ≠ .eq) (h : o ≠ keep.swap)
    (h' : o.swap ≠ keep.swap) : o = .eq := by
  revert hkeep h h'
  cases keep <;> cases o <;> decide

/-- What beats is not beaten. -/
theorem leads_of_compare (hkeep : keep ≠ .eq) (h : Ord.compare a b = keep) : Leads keep a b := by
  rw [leads_iff_compare_ne, h]
  cases keep with
  | eq => exact absurd rfl hkeep
  | lt => decide
  | gt => decide

theorem Leads.antisymm (hkeep : keep ≠ .eq) (hab : Leads keep a b) (hba : Leads keep b a) :
    a = b := by
  unfold Leads at *
  cases keep with
  | eq => exact absurd rfl hkeep
  | lt =>
    rw [compare_ge_iff_ge] at *
    exact le_antisymm hab hba
  | gt =>
    rw [compare_le_iff_le] at *
    exact le_antisymm hba hab

/-- What beats one of two is ahead of both. -/
theorem compare_of_leads_of_compare (hkeep : keep ≠ .eq) (hab : Leads keep a b)
    (hbc : Ord.compare b c = keep) : Ord.compare a c = keep := by
  by_contra hac
  -- `c` would lead `a`, and so `b`
  exact Leads.trans hkeep hac hab hbc

theorem compare_of_compare_of_leads (hkeep : keep ≠ .eq) (hab : Ord.compare a b = keep)
    (hbc : Leads keep b c) : Ord.compare a c = keep := by
  by_contra hac
  exact Leads.trans hkeep hbc hac hab

end

namespace Value

/-! ## Comparisons -/

/-- The place of a value among the numbers; what is not a number has none. -/
def place? (v : Value) : Option Int :=
  v.float?.bind fun x => if x.isNaN then none else some x.place

/-- Everything that a comparison can do. -/
inductive Compares : Value → Value → Ordering → Prop
  | texts {s t : String} {o : Ordering} (h : Ord.compare s t = o) : Compares (text s) (text t) o
  | booleans {p q : Bool} {o : Ordering} (h : Ord.compare p.toNat q.toNat = o) :
      Compares (boolean p) (boolean q) o
  | numbers {a b : Value} {m n : Int} {o : Ordering}
      (hnumeric : a.isNumeric = true ∨ b.isNumeric = true) (hm : a.place? = some m)
      (hn : b.place? = some n) (h : Ord.compare m n = o) : Compares a b o

theorem compareNumeric_eq_ok_iff {a b : Value} {o : Ordering} :
    compareNumeric a b = .ok o ↔
      ∃ m n, a.place? = some m ∧ b.place? = some n ∧ Ord.compare m n = o := by
  unfold compareNumeric place?
  cases a.float? with
  | none => simp [mismatch]
  | some x =>
    cases b.float? with
    | none => simp [mismatch]
    | some y => cases hx : x.isNaN <;> cases hy : y.isNaN <;> simp [Double.compare?, hx, hy]

theorem compare_of_isNumeric {a b : Value} (h : a.isNumeric = true ∨ b.isNumeric = true) :
    a.compare b = compareNumeric a b := by
  unfold compare
  split
  · simp [isNumeric] at h
  · simp [isNumeric] at h
  · rw [if_pos (by simpa using h)]

theorem compare_eq_ok_iff {a b : Value} {o : Ordering} : a.compare b = .ok o ↔ Compares a b o := by
  constructor
  · intro h
    unfold compare at h
    split at h
    · exact .texts (Except.ok.inj h)
    · exact .booleans (Except.ok.inj h)
    · split at h
      · next hnumeric =>
        obtain ⟨m, n, hm, hn, ho⟩ := compareNumeric_eq_ok_iff.1 h
        exact .numbers (by simpa using hnumeric) hm hn ho
      · cases h
  · intro h
    cases h with
    | texts h => exact congrArg Except.ok h
    | booleans h => exact congrArg Except.ok h
    | numbers hnumeric hm hn h =>
      rw [compare_of_isNumeric hnumeric, compareNumeric_eq_ok_iff]
      exact ⟨_, _, hm, hn, h⟩

/-- Only numbers and texts have a place among the numbers. -/
theorem isNumeric_or_text {v : Value} {n : Int} (h : v.place? = some n) :
    v.isNumeric = true ∨ ∃ s, v = text s := by
  cases v with
  | integer _ | float _ => exact Or.inl rfl
  | text s => exact Or.inr ⟨s, rfl⟩
  | boolean _ | null | array _ | map _ => cases h

/-! ## Consistent values -/

/-- A number between two texts, in the order of the numbers that they spell, finds them in this
    order also as texts. -/
def Consistent (values : List Value) : Prop :=
  ∀ ⦃s t x⦄, text s ∈ values → text t ∈ values → x ∈ values → x.isNumeric = true →
    ∀ ⦃m k n⦄, (text s).place? = some m → x.place? = some k → (text t).place? = some n →
      m ≤ k → k ≤ n → m < n → s < t

theorem Consistent.mono {values vs : List Value} (h : Consistent values)
    (hvs : ∀ v ∈ vs, v ∈ values) : Consistent vs :=
  fun _ _ _ hs ht hx => h (hvs _ hs) (hvs _ ht) (hvs _ hx)

/-- How the best value `r` is ahead of a value `v`: by its place or as a text, and where one of the
    two is a text and the other a number, by way of a text that spells a number. -/
inductive Ahead (keep : Ordering) (values : List Value) : Value → Value → Prop
  | self (v : Value) : Ahead keep values v v
  | texts {s t : String} (h : Leads keep s t) : Ahead keep values (text s) (text t)
  | booleans {p q : Bool} (h : Leads keep p.toNat q.toNat) :
      Ahead keep values (boolean p) (boolean q)
  | numbers {x y : Value} {m n : Int} (hx : x.isNumeric = true) (hy : y.isNumeric = true)
      (hm : x.place? = some m) (hn : y.place? = some n) (h : Leads keep m n) :
      Ahead keep values x y
  | numberText {x : Value} {t s : String} {m n : Int} (hx : x.isNumeric = true)
      (ht : text t ∈ values) (hm : x.place? = some m) (hn : (text t).place? = some n)
      (h : Leads keep m n) (h' : Leads keep t s) : Ahead keep values x (text s)
  | textNumber {s t : String} {y : Value} {m n : Int} (hy : y.isNumeric = true)
      (ht : text t ∈ values) (hm : (text t).place? = some m) (hn : y.place? = some n)
      (h : Leads keep s t) (h' : Leads keep m n) : Ahead keep values (text s) y

section
variable {keep : Ordering} {values : List Value}

theorem Ahead.mono {values' : List Value} (hsub : ∀ v ∈ values, v ∈ values') {r v : Value}
    (h : Ahead keep values r v) : Ahead keep values' r v := by
  cases h with
  | self => exact .self _
  | texts h => exact .texts h
  | booleans h => exact .booleans h
  | numbers hx hy hm hn h => exact .numbers hx hy hm hn h
  | numberText hx ht hm hn h h' => exact .numberText hx (hsub _ ht) hm hn h h'
  | textNumber hy ht hm hn h h' => exact .textNumber hy (hsub _ ht) hm hn h h'

/-- Consistency in either direction. -/
theorem Consistent.compare (hkeep : keep ≠ .eq) (h : Consistent values) {s t : String} {x : Value}
    (hs : text s ∈ values) (ht : text t ∈ values) (hx : x ∈ values) (hnumeric : x.isNumeric = true)
    {m k n : Int} (hm : (text s).place? = some m) (hk : x.place? = some k)
    (hn : (text t).place? = some n) (hmk : Leads keep m k) (hkn : Leads keep k n)
    (hmn : Ord.compare m n = keep) : Ord.compare s t = keep := by
  unfold Leads at hmk hkn
  cases keep with
  | eq => exact absurd rfl hkeep
  | lt =>
    rw [compare_ge_iff_ge] at hmk hkn
    rw [compare_lt_iff_lt] at hmn ⊢
    exact h hs ht hx hnumeric hm hk hn hmk hkn hmn
  | gt =>
    rw [compare_le_iff_le] at hmk hkn
    rw [compare_gt_iff_gt] at hmn ⊢
    exact h ht hs hx hnumeric hn hk hm hkn hmk hmn

/-- **A value that beats the best one** is ahead of all that the best one was ahead of. -/
theorem Ahead.replace (hkeep : keep ≠ .eq) (hvalues : Consistent values) {w b v : Value}
    (hw : w ∈ values) (hb : b ∈ values) (hv : v ∈ values) (hc : w.compare b = .ok keep)
    (h : Ahead keep values b v) : Ahead keep values w v := by
  cases compare_eq_ok_iff.1 hc with
  | texts has =>
    have has := leads_of_compare hkeep has
    cases h with
    | self => exact .texts has
    | texts hst => exact .texts (has.trans hkeep hst)
    | textNumber hy ht hm hn hst hmn => exact .textNumber hy ht hm hn (has.trans hkeep hst) hmn
    | numbers hx => cases hx
    | numberText hx => cases hx
  | booleans hpq =>
    have hpq := leads_of_compare hkeep hpq
    cases h with
    | self => exact .booleans hpq
    | booleans hqr => exact .booleans (hpq.trans hkeep hqr)
    | numbers hx => cases hx
    | numberText hx => cases hx
  | numbers hnumeric hm hn hmn =>
    have hlead := leads_of_compare hkeep hmn
    rcases isNumeric_or_text hm with hwn | ⟨a, rfl⟩
    · -- a number in front of `b`
      cases h with
      | self =>
        rcases isNumeric_or_text hn with hbn | ⟨s, rfl⟩
        · exact .numbers hwn hbn hm hn hlead
        · exact .numberText hwn hb hm hn hlead (leads_refl hkeep s)
      | texts hst => exact .numberText hwn hb hm hn hlead hst
      | booleans => cases hn
      | numbers hx hy hn' hk h =>
        cases hn.symm.trans hn'
        exact .numbers hwn hy hm hk (hlead.trans hkeep h)
      | numberText hx ht hn' hk h hts =>
        cases hn.symm.trans hn'
        exact .numberText hwn ht hm hk (hlead.trans hkeep h) hts
      | textNumber hy ht hi hk hst hik =>
        refine .numbers hwn hy hm hk fun hkm => hst ?_
        -- otherwise `v` would stand between the text on the way to it and `b`
        exact hvalues.compare hkeep ht hb hv hy hi hk hn hik
          (leads_of_compare hkeep (compare_of_compare_of_leads hkeep hkm hlead))
          (compare_of_leads_of_compare hkeep hik (compare_of_compare_of_leads hkeep hkm hlead))
    · -- a text in front of a number
      have hbn : b.isNumeric = true := hnumeric.resolve_left Bool.false_ne_true
      cases h with
      | self => exact .textNumber hbn hw hm hn (leads_refl hkeep a) hlead
      | texts => cases hbn
      | booleans => cases hbn
      | textNumber => cases hbn
      | numbers hx hy hn' hk h =>
        cases hn.symm.trans hn'
        exact .textNumber hy hw hm hk (leads_refl hkeep a) (hlead.trans hkeep h)
      | numberText hx ht hn' hk h hts =>
        cases hn.symm.trans hn'
        have hat := hvalues.compare hkeep hw ht hb hbn hm hn hk hlead h
          (compare_of_compare_of_leads hkeep hmn h)
        exact .texts ((leads_of_compare hkeep hat).trans hkeep hts)

/-- A value that does not beat the best one is behind it. -/
theorem ahead_of_kept (hkeep : keep ≠ .eq) {w b : Value} {o : Ordering} (hw : w ∈ values)
    (hb : b ∈ values) (hc : w.compare b = .ok o) (ho : o ≠ keep) : Ahead keep values b w := by
  cases compare_eq_ok_iff.1 hc with
  | texts h => exact .texts (h.trans_ne ho)
  | booleans h => exact .booleans (h.trans_ne ho)
  | numbers hnumeric hm hn h =>
    have hlead : Leads keep _ _ := h.trans_ne ho
    rcases isNumeric_or_text hn with hbn | ⟨s, rfl⟩
    · rcases isNumeric_or_text hm with hwn | ⟨a, rfl⟩
      · exact .numbers hbn hwn hn hm hlead
      · exact .numberText hbn hw hn hm hlead (leads_refl hkeep a)
    · have hwn : w.isNumeric = true := hnumeric.resolve_right Bool.false_ne_true
      exact .textNumber hwn hb hn hm (leads_refl hkeep s) hlead

/-- **What is ahead is not beaten.** -/
theorem Ahead.not_beaten (hkeep : keep ≠ .eq) (hvalues : Consistent values) {r v : Value}
    (hr : r ∈ values) (hv : v ∈ values) (h : Ahead keep values r v) :
    r.compare v ≠ .ok keep.swap := by
  intro hc
  cases compare_eq_ok_iff.1 hc with
  | texts hst =>
    have hst := compare_eq_swap_iff.1 hst
    cases h with
    | self => exact leads_refl hkeep _ hst
    | texts h => exact h hst
    | numbers hx => cases hx
    | numberText hx => cases hx
    | textNumber hy => cases hy
  | booleans hpq =>
    have hpq := compare_eq_swap_iff.1 hpq
    cases h with
    | self => exact leads_refl hkeep _ hpq
    | booleans h => exact h hpq
    | numbers hx => cases hx
  | numbers hnumeric hm hn hmn =>
    have hnm := compare_eq_swap_iff.1 hmn
    cases h with
    | self =>
      cases hm.symm.trans hn
      exact leads_refl hkeep _ hnm
    | texts => exact hnumeric.elim Bool.false_ne_true Bool.false_ne_true
    | booleans => cases hm
    | numbers hx hy hm' hn' h =>
      cases hm.symm.trans hm'
      cases hn.symm.trans hn'
      exact h hnm
    | numberText hx ht hm' hk h hts =>
      cases hm.symm.trans hm'
      -- `v` would come before `r` and `r` before the text on the way to it
      exact hts (hvalues.compare hkeep hv ht hr hx hn hm hk (leads_of_compare hkeep hnm) h
        (compare_of_compare_of_leads hkeep hnm h))
    | textNumber hy ht hk hn' hst hkn =>
      cases hn.symm.trans hn'
      exact hst (hvalues.compare hkeep ht hr hv hy hk hn hm hkn (leads_of_compare hkeep hnm)
        (compare_of_leads_of_compare hkeep hkn hnm))

/-! ## Runs -/

/-- The best of the values, taken one after the other. -/
def best (keep : Ordering) (current : Option Value) (vs : List Value) :
    Except QueryError (Option Value) :=
  vs.foldlM (fun current v => do return some (← Accumulator.better keep current v)) current

theorem best_cons (current : Option Value) (v : Value) (rest : List Value) :
    best keep current (v :: rest) =
      Accumulator.better keep current v >>= fun w => best keep (some w) rest := by
  unfold best
  rw [List.foldlM_cons]
  cases Accumulator.better keep current v <;> rfl

theorem bestOf_first {v : Value} (hv : v.isNull = false) (rest : List Value) :
    Scalar.bestOf keep none (v :: rest) = Scalar.bestOf keep (some v) rest := by
  rw [Scalar.bestOf, if_neg (by simp [hv])]

theorem bestOf_next {v w : Value} {o : Ordering} (hv : v.isNull = false)
    (hc : v.compare w = .ok o) (rest : List Value) :
    Scalar.bestOf keep (some w) (v :: rest) =
      Scalar.bestOf keep (some (if o = keep then v else w)) rest := by
  rw [Scalar.bestOf, if_neg (by simp [hv])]
  simp only [hc, bind, Except.bind]
  split <;> rfl

/-- GREATEST and LEAST take the best of the arguments that are not NULL. -/
theorem bestOf_eq (current : Option Value) (vs : List Value) :
    Scalar.bestOf keep current vs =
      (best keep current (vs.filter (!·.isNull))).map (·.getD .null) := by
  induction vs generalizing current with
  | nil => rfl
  | cons v rest ih =>
    cases hv : v.isNull with
    | true =>
      unfold Scalar.bestOf
      rw [if_pos hv, ih, List.filter_cons_of_neg (by simp [hv])]
    | false =>
      rw [List.filter_cons_of_pos (by simp [hv]), best_cons]
      cases current with
      | none => rw [bestOf_first hv, ih]; rfl
      | some w =>
        simp only [Accumulator.better]
        cases hc : v.compare w with
        | error e =>
          rw [Scalar.bestOf, if_neg (by simp [hv]), hc]
          rfl
        | ok o => rw [bestOf_next hv hc, ih]; rfl

/-- MIN and MAX take the best of the candidates. -/
theorem foldlM_add_extremum (current : Option Value) (vs : List Value) :
    vs.foldlM Accumulator.add (.extremum keep current) =
      (best keep current (vs.map Accumulator.candidate)).map (.extremum keep) := by
  induction vs generalizing current with
  | nil => rfl
  | cons v rest ih =>
    rw [List.foldlM_cons, List.map_cons, best_cons]
    simp only [Accumulator.add, bind, Except.bind, pure, Except.pure]
    cases Accumulator.better keep current (Accumulator.candidate v) with
    | error e => rfl
    | ok w => exact ih (some w)

/-- One value more: the best value is ahead of it, and stays ahead of all values. -/
theorem better_ahead (hkeep : keep ≠ .eq) (hvalues : Consistent values) {b w c : Value}
    (hb : b ∈ values) (hw : w ∈ values) (h : Accumulator.better keep (some b) w = .ok c) :
    c ∈ values ∧ Ahead keep values c w ∧
      ∀ v ∈ values, Ahead keep values b v → Ahead keep values c v := by
  obtain ⟨o, ho, hc⟩ := bind_eq_ok.1 h
  obtain rfl := Except.ok.inj hc
  split
  · next hbeats =>
    subst hbeats
    exact ⟨hw, .self w, fun v hv hbv => hbv.replace hkeep hvalues hw hb hv ho⟩
  · next hkept => exact ⟨hb, ahead_of_kept hkeep hw hb ho hkept, fun _ _ hbv => hbv⟩

/-- The best value stays ahead of all values that it was ahead of, and is one of the values. -/
theorem best_ahead (hkeep : keep ≠ .eq) (hvalues : Consistent values) {b : Value}
    (hb : b ∈ values) {vs : List Value} (hvs : ∀ v ∈ vs, v ∈ values) {result : Option Value}
    (h : best keep (some b) vs = .ok result) :
    ∃ r ∈ values, result = some r ∧
      ∀ v ∈ values, v ∈ vs ∨ Ahead keep values b v → Ahead keep values r v := by
  induction vs generalizing b with
  | nil =>
    cases h
    exact ⟨b, hb, rfl, fun v _ h => h.resolve_left List.not_mem_nil⟩
  | cons w rest ih =>
    rw [best_cons] at h
    obtain ⟨c, hbetter, hrest⟩ := bind_eq_ok.1 h
    obtain ⟨hc, hcw, hkeeps⟩ := better_ahead hkeep hvalues hb (hvs w List.mem_cons_self) hbetter
    obtain ⟨r, hr, hresult, hahead⟩ := ih hc (fun v hv => hvs v (List.mem_cons_of_mem _ hv)) hrest
    refine ⟨r, hr, hresult, fun v hv hor => hahead v hv ?_⟩
    rcases hor with hmem | hbv
    · rcases List.mem_cons.1 hmem with rfl | hmem
      · exact Or.inr hcw
      · exact Or.inl hmem
    · exact Or.inr (hkeeps v hv hbv)

/-- **The best of consistent values** is one of them and ahead of all of them. -/
theorem ahead_of_best (hkeep : keep ≠ .eq) {vs : List Value} (hvs : Consistent vs)
    (hne : vs ≠ []) {result : Option Value} (h : best keep none vs = .ok result) :
    ∃ r ∈ vs, result = some r ∧ ∀ v ∈ vs, Ahead keep vs r v := by
  obtain ⟨b, rest, rfl⟩ := List.exists_cons_of_ne_nil hne
  obtain ⟨r, hr, hresult, hahead⟩ := best_ahead hkeep hvs List.mem_cons_self
    (fun v hv => List.mem_cons_of_mem _ hv) h
  refine ⟨r, hr, hresult, fun v hv => hahead v hv ?_⟩
  rcases List.mem_cons.1 hv with rfl | hv
  · exact Or.inr (.self v)
  · exact Or.inl hv

theorem Compares.swap {a b : Value} {o : Ordering} (h : Compares a b o) : Compares b a o.swap := by
  cases h with
  | texts h => exact .texts (compare_eq_swap_iff.2 h)
  | booleans h => exact .booleans (compare_eq_swap_iff.2 h)
  | numbers hnumeric hm hn h => exact .numbers hnumeric.symm hn hm (compare_eq_swap_iff.2 h)

/-- A text that is ahead of all values is a number if a number is ahead of it. -/
theorem place_of_ahead (hkeep : keep ≠ .eq) {x : Value} {s : String} (hx : x.isNumeric = true)
    (h : Ahead keep values x (text s)) (h' : ∀ v ∈ values, Ahead keep values (text s) v) :
    ∃ m n, x.place? = some m ∧ (text s).place? = some n := by
  cases h with
  | self => cases hx
  | texts => cases hx
  | textNumber => cases hx
  | numbers _ hy => cases hy
  | numberText _ ht hm hn _ hts =>
    cases h' _ ht with
    | self => exact ⟨_, _, hm, hn⟩
    | texts hst =>
      rw [hst.antisymm hkeep hts]
      exact ⟨_, _, hm, hn⟩
    | numbers hy => cases hy
    | numberText hy => cases hy
    | textNumber hy => cases hy

/-- Two values that are ahead of all values, and so of each other, are equal. -/
theorem eq_of_ahead (hkeep : keep ≠ .eq) (hvalues : Consistent values) {r r' : Value}
    (hr : r ∈ values) (hr' : r' ∈ values) (h : ∀ v ∈ values, Ahead keep values r v)
    (h' : ∀ v ∈ values, Ahead keep values r' v) : r = r' ∨ r.compare r' = .ok .eq := by
  have hcompares : r = r' ∨ ∃ o, Compares r r' o := by
    cases hahead : h r' hr' with
    | self => exact Or.inl rfl
    | texts => exact Or.inr ⟨_, .texts rfl⟩
    | booleans => exact Or.inr ⟨_, .booleans rfl⟩
    | numbers hx hy hm hn _ => exact Or.inr ⟨_, .numbers (Or.inl hx) hm hn rfl⟩
    | numberText hx ht hm hn hmn hts =>
      obtain ⟨m, n, hm, hn⟩ := place_of_ahead hkeep hx (.numberText hx ht hm hn hmn hts) h'
      exact Or.inr ⟨_, .numbers (Or.inl hx) hm hn rfl⟩
    | textNumber hy =>
      obtain ⟨m, n, hm, hn⟩ := place_of_ahead hkeep hy (h' _ hr) h
      exact Or.inr ⟨_, .numbers (Or.inr hy) hn hm rfl⟩
  refine hcompares.imp_right fun ⟨o, ho⟩ => compare_eq_ok_iff.2 ?_
  -- neither of the two beats the other
  have hne : o ≠ keep.swap := fun hswap =>
    (h r' hr').not_beaten hkeep hvalues hr hr' (compare_eq_ok_iff.2 (hswap ▸ ho))
  have hne' : o.swap ≠ keep.swap := fun hswap =>
    (h' r hr).not_beaten hkeep hvalues hr' hr (compare_eq_ok_iff.2 (hswap ▸ ho.swap))
  exact eq_of_ne_swap hkeep hne hne' ▸ ho

/-! ## Extrema -/

/-- No value beats `r` in the direction of `keep`. -/
def IsExtremum (keep : Ordering) (r : Value) (vs : List Value) : Prop :=
  ∀ v ∈ vs, r.compare v ≠ .ok keep.swap

theorem isExtremum_best (hkeep : keep ≠ .eq) {vs : List Value} (hvs : Consistent vs)
    {result : Option Value} (h : best keep none vs = .ok result) :
    IsExtremum keep (result.getD .null) vs := by
  intro v hv
  obtain ⟨r, hr, rfl, hahead⟩ := ahead_of_best hkeep hvs (List.ne_nil_of_mem hv) h
  exact (hahead v hv).not_beaten hkeep hvs hr hv

/-- The best value does not depend on the order in which the values come. -/
theorem best_perm (hkeep : keep ≠ .eq) {vs ws : List Value} (hvs : Consistent vs)
    (hperm : vs.Perm ws) {result result' : Option Value} (h : best keep none vs = .ok result)
    (h' : best keep none ws = .ok result') :
    result.getD .null = result'.getD .null ∨
      (result.getD .null).compare (result'.getD .null) = .ok .eq := by
  rcases eq_or_ne vs [] with rfl | hne
  · obtain rfl := hperm.nil_eq
    cases h
    cases h'
    exact Or.inl rfl
  · have hws : Consistent ws := hvs.mono fun v => hperm.mem_iff.2
    obtain ⟨r, hr, rfl, hahead⟩ := ahead_of_best hkeep hvs hne h
    obtain ⟨r', hr', rfl, hahead'⟩ :=
      ahead_of_best hkeep hws (fun hnil => hne (hnil ▸ hperm).eq_nil) h'
    exact eq_of_ahead hkeep hvs hr (hperm.mem_iff.2 hr') hahead
      fun v hv => (hahead' v (hperm.mem_iff.1 hv)).mono fun u => hperm.mem_iff.2

/-- Integers count as floats, at the same places. -/
theorem place?_candidate (v : Value) : (Accumulator.candidate v).place? = v.place? := by
  cases v <;> rfl

theorem isNumeric_candidate (v : Value) : (Accumulator.candidate v).isNumeric = v.isNumeric := by
  cases v <;> rfl

theorem text_mem_candidates {vs : List Value} {s : String}
    (h : text s ∈ vs.map Accumulator.candidate) : text s ∈ vs := by
  obtain ⟨v, hv, hs⟩ := List.mem_map.1 h
  cases v with
  | text => exact hs ▸ hv
  | _ => cases hs

theorem Consistent.candidates {vs : List Value} (h : Consistent vs) :
    Consistent (vs.map Accumulator.candidate) := by
  intro s t x hs ht hx hnumeric m k n hm hk hn
  obtain ⟨v, hv, rfl⟩ := List.mem_map.1 hx
  rw [isNumeric_candidate] at hnumeric
  rw [place?_candidate] at hk
  exact h (text_mem_candidates hs) (text_mem_candidates ht) hv hnumeric hm hk hn

/-- What GREATEST and MAX (`keep = gt`) or LEAST and MIN (`keep = lt`) make of the values is not
    beaten by any of them, and equal for any order of the values. -/
structure Settled (keep : Ordering) (vs : List Value) : Prop where
  call : ∀ r, Scalar.bestOf keep none vs = .ok r →
    IsExtremum keep r (vs.filter (!·.isNull)) ∧
      ∀ ws r', vs.Perm ws → Scalar.bestOf keep none ws = .ok r' →
        r = r' ∨ r.compare r' = .ok .eq
  fold : ∀ acc, vs.foldlM Accumulator.add (.extremum keep none) = .ok acc →
    IsExtremum keep acc.result (vs.map Accumulator.candidate) ∧
      ∀ ws acc', vs.Perm ws → ws.foldlM Accumulator.add (.extremum keep none) = .ok acc' →
        acc.result = acc'.result ∨ acc.result.compare acc'.result = .ok .eq

theorem Consistent.settled (hkeep : keep ≠ .eq) {vs : List Value} (hvs : Consistent vs) :
    Settled keep vs := by
  constructor
  · intro r hr
    rw [bestOf_eq] at hr
    obtain ⟨result, hresult, rfl⟩ := map_eq_ok.1 hr
    have hfilter := hvs.mono fun v (hv : v ∈ vs.filter (!·.isNull)) => (List.mem_filter.1 hv).1
    refine ⟨isExtremum_best hkeep hfilter hresult, fun ws r' hperm hr' => ?_⟩
    rw [bestOf_eq] at hr'
    obtain ⟨result', hresult', rfl⟩ := map_eq_ok.1 hr'
    exact best_perm hkeep hfilter (hperm.filter _) hresult hresult'
  · intro acc hacc
    rw [foldlM_add_extremum] at hacc
    obtain ⟨result, hresult, rfl⟩ := map_eq_ok.1 hacc
    refine ⟨isExtremum_best hkeep hvs.candidates hresult, fun ws acc' hperm hacc' => ?_⟩
    rw [foldlM_add_extremum] at hacc'
    obtain ⟨result', hresult', rfl⟩ := map_eq_ok.1 hacc'
    exact best_perm hkeep hvs.candidates (hperm.map _) hresult hresult'

/-- Two texts whose order is turned round by a number between them: the one that the other beats
    can win, by way of the number. -/
theorem exists_not_settled (hkeep : keep ≠ .eq) {a c : String} {x : Value}
    (hx : x.isNumeric = true) {m k n : Int} (hm : (text a).place? = some m)
    (hk : x.place? = some k) (hn : (text c).place? = some n) (hmk : Leads keep m k)
    (hkn : Leads keep k n) (hmn : Ord.compare m n = keep) (hca : Ord.compare c a = keep) :
    ∃ vs, (∀ v ∈ vs, v ∈ [text a, x, text c]) ∧ ¬ Settled keep vs := by
  have hnull : x.isNull = false := by
    cases x with
    | integer => rfl
    | float => rfl
    | _ => cases hx
  have hcx : (text c).compare x = .ok (Ord.compare n k) :=
    compare_eq_ok_iff.2 (.numbers (Or.inr hx) hn hk rfl)
  by_cases hbeats : Ord.compare m k = keep
  · -- `c` does not beat the number, but `a` does
    have hax : (text a).compare x = .ok keep :=
      compare_eq_ok_iff.2 (.numbers (Or.inr hx) hm hk hbeats)
    have hbest : Scalar.bestOf keep none [x, text c, text a] = .ok (text a) := by
      rw [bestOf_first hnull, bestOf_next rfl hcx, if_neg hkn, bestOf_next rfl hax, if_pos rfl]
      rfl
    refine ⟨[x, text c, text a], by simp, fun h => ?_⟩
    exact (h.call _ hbest).1 (text c) (by simp [isNull])
      (congrArg Except.ok (compare_eq_swap_iff.2 hca))
  · -- the number does not beat `a`, but `c` does, though the number beats it
    have hxa : x.compare (text a) = .ok (Ord.compare k m) :=
      compare_eq_ok_iff.2 (.numbers (Or.inl hx) hk hm rfl)
    have hbest : Scalar.bestOf keep none [text a, x, text c] = .ok (text c) := by
      rw [bestOf_first rfl, bestOf_next hnull hxa, if_neg hmk,
        bestOf_next rfl (show (text c).compare (text a) = .ok keep from congrArg Except.ok hca),
        if_pos rfl]
      rfl
    have hbeaten : Ord.compare k n = keep := compare_of_leads_of_compare hkeep hbeats hmn
    refine ⟨[text a, x, text c], by simp, fun h => ?_⟩
    exact (h.call _ hbest).1 x (by simp [hnull])
      (hcx.trans (congrArg Except.ok (compare_eq_swap_iff.2 hbeaten)))

/-- **Extrema**: GREATEST, LEAST, MAX and MIN give a value that no other value beats, whatever the
    order of the values, for all sequences of values from a collection exactly if the collection is
    consistent: no number in it stands between two texts that come in one order as numbers and in
    the other as texts. -/
theorem extrema_iff_consistent (values : List Value) :
    Consistent values ↔
      ∀ keep, keep ≠ .eq → ∀ vs, (∀ v ∈ vs, v ∈ values) → Settled keep vs := by
  constructor
  · intro h keep hkeep vs hvs
    exact (h.mono hvs).settled hkeep
  · intro h s t x hs ht hx hnumeric m k n hm hk hn hmk hkn hmn
    by_contra hst
    have hne : s ≠ t := by
      rintro rfl
      cases hm.symm.trans hn
      exact lt_irrefl _ hmn
    have hts : t < s := lt_of_le_of_ne (not_lt.1 hst) hne.symm
    have hlt : Ordering.lt ≠ .eq := by decide
    obtain ⟨vs, hvs, hnot⟩ := exists_not_settled hlt hnumeric hm hk hn
      (compare_ge_iff_ge.2 hmk) (compare_ge_iff_ge.2 hkn) (compare_lt_iff_lt.2 hmn)
      (compare_lt_iff_lt.2 hts)
    refine hnot (h .lt hlt vs fun v hv => ?_)
    have hmem := hvs v hv
    simp only [List.mem_cons, List.not_mem_nil, or_false] at hmem
    rcases hmem with rfl | rfl | rfl
    · exact hs
    · exact hx
    · exact ht

end

/-- Numbers, and texts that come in one order as numbers and as texts. -/
theorem extrema_iff_consistent_mixed :
    let values := [text "3", integer 10, text "40"]
    Consistent values ∧ Scalar.greatest values = .ok (text "40") ∧
      IsExtremum .gt (text "40") values := by
  intro values
  have hthree : (text "3").place? = some 4613937818241073152 := by decide +kernel
  have hforty : (text "40").place? = some 4630826316843712512 := by decide +kernel
  have hconsistent : Consistent values := by
    intro s t x hs ht _ _ m k n hm _ hn _ _ hmn
    have htexts : ∀ {u}, text u ∈ values → u = "3" ∨ u = "40" := by simp [values]
    rcases htexts hs with rfl | rfl <;> rcases htexts ht with rfl | rfl
    · cases hm.symm.trans hn
      exact absurd hmn (lt_irrefl _)
    · decide
    · cases hforty.symm.trans hm
      cases hthree.symm.trans hn
      exact absurd hmn (by decide)
    · cases hm.symm.trans hn
      exact absurd hmn (lt_irrefl _)
  have hgreatest : Scalar.greatest values = .ok (text "40") := by with_unfolding_all rfl
  have hsettled := (extrema_iff_consistent values).1 hconsistent .gt (by decide) values
    fun _ hv => hv
  exact ⟨hconsistent, hgreatest, (hsettled.call _ hgreatest).1⟩

/-- `LEAST(10, '10', '9')` is `'9'`, which is greater than `'10'`; in the other order `'10'` is the
    least of them. -/
theorem least_greater :
    Scalar.least [integer 10, text "10", text "9"] = .ok (text "9") ∧
      (text "9").compare (text "10") = .ok .gt ∧
      Scalar.least [text "9", text "10", integer 10] = .ok (text "10") ∧
      ([integer 10, text "10", text "9"].foldlM Accumulator.add (.extremum .lt none)).map
        Accumulator.result = .ok (text "9") := by
  refine ⟨?_, ?_, ?_, ?_⟩
  · with_unfolding_all rfl
  · rfl
  · with_unfolding_all rfl
  · with_unfolding_all rfl

end Value

end StreamSql
