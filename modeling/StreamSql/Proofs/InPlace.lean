/-
  Accumulators that are written where they stand.

  An accumulator of a group is kept for a long time and every field of it is written on its own.
  A value that it does not take could then leave some fields written and others not.

  * `Moments.push`, `Accumulator.push`: one value more, field by field; what was written before a
    failure stays written;
  * `run_push`: a value that is not taken has written nothing;
  * `Accumulator.pushRow`: the contributions of a record, one slot after the other;
  * `Accumulator.accepted`: the values of a list that an aggregate takes, one after the other;
  * `failing_leaves_no_trace`: a value that fails can be left out of any history, and each slot
    of a group has folded exactly what it takes of its own contributions.
-/
import Mathlib.Tactic.Common
import StreamSql.Proofs.Grouping

namespace StreamSql

/-! ## One value more -/

/-- One value more, written field by field. -/
def Moments.push (x : Double) : StateM (Moments Double) Unit := do
  modify fun m => { m with count := m.count + 1 }
  let before := (← get).mean
  modify fun m => { m with mean := m.mean + (x - before) / (m.count : Double) }
  let after := (← get).mean
  modify fun m => { m with squares := m.squares + (x - before) * (x - after) }

theorem Moments.run_push (m : Moments Double) (x : Double) :
    (Moments.push x).run m = ((), m.add x) := rfl

namespace Accumulator

/-- Steps that write an accumulator and can fail; what was written before a failure stays. -/
abbrev InPlace := ExceptT QueryError (StateM Accumulator)

/-- A candidate takes the place of the current value. -/
def replaces (keep : Ordering) (current : Option Value) (w : Value) : Except QueryError Bool :=
  match current with
  | none => .ok true
  | some u => do return (← w.compare u) = keep

/-- One value more, written field by field to an accumulator that reads so. -/
def pushTo (v : Value) : Accumulator → InPlace Unit
  | count n => set (count (n + 1))
  | sum total seen => do
    let x ← numericInput v
    set (sum (total + x) seen)
    set (sum (total + x) true)
  | average moments => do
    let x ← numericInput v
    set (average ((Moments.push x).run moments).2)
  | extremum keep current => do
    if ← replaces keep current (candidate v) then
      set (extremum keep (some (candidate v)))
  | dispersion sample root moments => do
    let x ← numericInput v
    set (dispersion sample root ((Moments.push x).run moments).2)
  | percentile fraction values => do
    let x ← numericInput v
    set (percentile fraction (values ++ [x]))
  | collect values => set (collect (values ++ [v]))
  | first value => if value.isNone then set (first (some v)) else pure ()
  | last _ => set (last (some v))
  | custom aggregate values => do
    aggregate.accepts v
    set (custom aggregate (values ++ [v]))

/-- One value more, written field by field. -/
def push (v : Value) : InPlace Unit := do
  pushTo v (← get)

theorem run_lift_bind {α : Type} (x : Except QueryError α) (f : α → InPlace Unit)
    (acc : Accumulator) :
    (liftM x >>= f : InPlace Unit).run acc =
      match x with
      | .ok a => (f a).run acc
      | .error e => (.error e, acc) := by
  cases x <;> rfl

/-- What is better is the candidate exactly if it takes the place of the current value. -/
theorem better_eq (keep : Ordering) (current : Option Value) (w : Value) :
    (do return extremum keep (some (← better keep current w)) : Except QueryError Accumulator) =
      (replaces keep current w).map fun b =>
        if b then extremum keep (some w) else extremum keep current := by
  cases current with
  | none => rfl
  | some u =>
    simp only [better, replaces]
    cases w.compare u with
    | error e => rfl
    | ok order =>
      show Except.ok (extremum keep (some (if order = keep then w else u))) =
        .ok (if decide (order = keep) then extremum keep (some w) else extremum keep (some u))
      by_cases h : order = keep <;> simp [h]

/-- **A value is taken in full**, as `add` takes it, or it has written nothing. -/
theorem run_push (acc : Accumulator) (v : Value) :
    (push v).run acc =
      match acc.add v with
      | .ok acc' => (.ok (), acc')
      | .error e => (.error e, acc) := by
  show (pushTo v acc).run acc = _
  cases acc with
  | count | collect | last => rfl
  | first value => cases value <;> rfl
  | sum | percentile =>
    rw [pushTo, run_lift_bind, add]
    cases numericInput v <;> rfl
  | average | dispersion =>
    simp only [pushTo, Moments.run_push, run_lift_bind, add]
    cases numericInput v <;> rfl
  | custom aggregate =>
    rw [pushTo, run_lift_bind, add]
    cases aggregate.accepts v <;> rfl
  | extremum keep current =>
    rw [pushTo, run_lift_bind, add, better_eq]
    cases replaces keep current (candidate v) with
    | error e => rfl
    | ok b => cases b <;> rfl

/-- The state after a value was offered: NULL is passed over, and so is a failure, with all that
    was written before it. -/
def pushed (acc : Accumulator) (v : Value) : Accumulator :=
  if v.isNull then acc else ((push v).run acc).2

theorem pushed_eq (acc : Accumulator) (v : Value) : acc.pushed v = acc.offer v := by
  unfold pushed offer
  rw [run_push]
  cases acc.add v <;> rfl

theorem pushed_of_error {acc : Accumulator} {v : Value} {e : QueryError}
    (h : ((push v).run acc).1 = .error e) : acc.pushed v = acc := by
  rw [pushed_eq, offer]
  rw [run_push] at h
  cases hadd : acc.add v with
  | ok acc' => rw [hadd] at h; cases h
  | error _ => exact ite_self acc

/-! ## Many values -/

/-- The values of a list that an aggregate takes, one after the other: those that are not NULL
    and do not fail in the state that the ones before have made. -/
def accepted (acc : Accumulator) : List Value → List Value
  | [] => []
  | v :: rest =>
    if v.isNull then accepted acc rest
    else
      match acc.add v with
      | .ok acc' => v :: accepted acc' rest
      | .error _ => accepted acc rest

/-- What has been offered to an accumulator has been folded as far as it was accepted. -/
theorem foldlM_accepted (vs : List Value) (acc : Accumulator) :
    (acc.accepted vs).foldlM add acc = .ok (vs.foldl offer acc) := by
  induction vs generalizing acc with
  | nil => rfl
  | cons v rest ih =>
    rw [accepted, List.foldl_cons, offer]
    cases v.isNull with
    | true => exact ih acc
    | false =>
      cases hadd : acc.add v with
      | error e => exact ih acc
      | ok acc' =>
        simp only [Bool.false_eq_true, if_false, List.foldlM_cons, hadd]
        exact ih acc'

/-- The contributions of a record are offered, each to the accumulator in its place, from the
    slot number `i` on. -/
def pushRow (i : Nat) : List Value → StateM (List Accumulator) Unit
  | [] => pure ()
  | v :: rest => do
    modify fun accs => accs.modify i fun acc => acc.pushed v
    pushRow (i + 1) rest

/-- An accumulator is offered the contribution to its own slot and nothing else. -/
theorem getElem?_pushRow (row : List Value) (i j : Nat) (accs : List Accumulator) :
    ((pushRow i row).run accs).2[j]? =
      accs[j]?.map fun acc => if i ≤ j then row[j - i]?.elim acc acc.offer else acc := by
  induction row generalizing i accs with
  | nil =>
    show accs[j]? = _
    cases accs[j]? <;> simp
  | cons v rest ih =>
    show ((pushRow (i + 1) rest).run (accs.modify i fun acc => acc.pushed v)).2[j]? = _
    rw [ih, List.getElem?_modify]
    cases accs[j]? with
    | none => rfl
    | some acc =>
      rcases Nat.lt_trichotomy i j with hlt | rfl | hgt
      · obtain ⟨k, rfl⟩ := Nat.exists_eq_add_of_lt hlt
        simp [show i ≤ i + k + 1 by omega, show i + k + 1 - i = k + 1 by omega,
          show i ≠ i + k + 1 by omega, show i + k + 1 - (i + 1) = k by omega]
      · simp [pushed_eq, show ¬ i + 1 ≤ i by omega]
      · simp [show ¬ i ≤ j by omega, show ¬ i + 1 ≤ j by omega, show i ≠ j by omega]

end Accumulator

namespace Group

/-- A record is added to a group as its contributions are written slot by slot. -/
theorem accumulators_add {g : Group} {row : List Value}
    (h : row.length = g.accumulators.length) :
    (g.add row).accumulators = ((Accumulator.pushRow 0 row).run g.accumulators).2 := by
  refine List.ext_getElem? fun j => ?_
  rw [Accumulator.getElem?_pushRow]
  show (List.zipWith Accumulator.offer g.accumulators row)[j]? = _
  rw [List.getElem?_zipWith]
  cases hacc : g.accumulators[j]? with
  | none => rfl
  | some acc =>
    obtain ⟨hj, -⟩ := List.getElem?_eq_some_iff.1 hacc
    simp [List.getElem?_eq_getElem (h ▸ hj)]

/-- So is a list of records. -/
theorem accumulators_foldl_add {rows : List (List Value)} {g : Group}
    (h : ∀ row ∈ rows, row.length = g.accumulators.length) :
    (rows.foldl add g).accumulators =
      rows.foldl (fun accs row => ((Accumulator.pushRow 0 row).run accs).2) g.accumulators := by
  induction rows generalizing g with
  | nil => rfl
  | cons row rest ih =>
    have hrow := h row List.mem_cons_self
    have hlength : (g.add row).accumulators.length = g.accumulators.length := by
      simp [add, hrow]
    rw [List.foldl_cons, List.foldl_cons, ← accumulators_add hrow, ih fun row' hrow' => by
      rw [hlength, h row' (List.mem_cons_of_mem _ hrow')]]

end Group

/-! ## Values that fail -/

/-- **A value that an aggregate does not take leaves no trace**: with it or without it, the
    result is the same at once and after any more values.  So each slot of a group, written in
    place, has folded exactly those of its own contributions that are not NULL and that it
    takes, whatever the other slots do. -/
theorem Accumulator.failing_leaves_no_trace :
    (∀ (acc : Accumulator) (before after : List Value) (v : Value) (e : QueryError),
      ((push v).run (before.foldl pushed acc)).1 = .error e →
        ((before ++ v :: after).foldl pushed acc).result =
          ((before ++ after).foldl pushed acc).result) ∧
    ∀ (p : Plan) (first : Record) (g : Group), p.newGroup first = .ok g →
      ∀ records : List Record,
        let final := records.foldl (fun g record => g.add (p.contributions record)) g
        final.accumulators = records.foldl
          (fun accs record => ((pushRow 0 (p.contributions record)).run accs).2) g.accumulators ∧
        ∀ (i : Nat) (s : Slot), p.slots[i]? = some s →
          ∃ fresh acc, s.create = .ok fresh ∧
            (fresh.accepted (records.map (s.contribution p.registry))).foldlM add fresh = .ok acc ∧
            final.results[i]? = some acc.result := by
  refine ⟨fun acc before after v e he => ?_, fun p first g hg records => ?_⟩
  · rw [List.foldl_append, List.foldl_cons, pushed_of_error he, List.foldl_append]
  · obtain ⟨accs, haccs, hg⟩ := bind_eq_ok.1 hg
    obtain rfl : (⟨first, accs⟩ : Group) = g := Except.ok.inj hg
    refine ⟨?_, fun i s hs => ?_⟩
    · have hlength : ∀ row ∈ records.map p.contributions, row.length = accs.length := by
        intro row hrow
        obtain ⟨record, -, rfl⟩ := List.mem_map.1 hrow
        rw [Plan.contributions, List.length_map, Plan.length_mapM haccs]
      have hrows := Group.accumulators_foldl_add (g := ⟨first, accs⟩) hlength
      rwa [List.foldl_map, List.foldl_map] at hrows
    · obtain ⟨fresh, hfresh, hi⟩ := Plan.getElem?_mapM haccs hs
      refine ⟨fresh, _, hfresh, foldlM_accepted _ fresh, ?_⟩
      have hcontribution : ∀ record, (p.contributions record)[i]? =
          some (s.contribution p.registry record) := fun record => by
        rw [Plan.contributions, List.getElem?_map, hs]
        rfl
      rw [Group.results, List.getElem?_map, List.foldl_map,
        Plan.getElem?_foldl_add (g := ⟨first, accs⟩) hcontribution records hi]
      rfl

/-- MIN and COUNT over the values of one field. -/
def Plan.extremes : Plan where
  query := {
    fields := [.column (.call "MIN" [.column "v"]) none, .column (.call "COUNT" [.column "v"]) none]
    distinct := false, source := "s", condition := none, groupBy := [], window := some (.counting 3)
    having := none, limit := none, properties := [] }
  condition := none
  groupBy := []
  slots := [
    ⟨"MIN", some (.ofExpr (.column "v")), [], "MIN(v)",
      ⟨.exactly 1, fun _ => .ok (.extremum .lt none)⟩⟩,
    ⟨"COUNT", some (.ofExpr (.column "v")), [], "COUNT(v)", ⟨⟨0, some 1⟩, fun _ => .ok (.count 0)⟩⟩]
  outputs := [.column "MIN(v)" (.ofExpr (.slot 0)), .column "COUNT(v)" (.ofExpr (.slot 1))]
  having := none
  window := some (.counting 3)
  timestamp := none
  registry := {}

/-- Between two texts, MIN does not take a truth value, which COUNT counts. -/
theorem Accumulator.failing_leaves_no_trace_texts :
    let minimum : Accumulator := .extremum .lt none
    let values : List Value := [.text "pear", .boolean true, .text "apple"]
    let records : List Record := values.map fun v => ⟨[("v", v)]⟩
    let final := fun g : Group =>
      records.foldl (fun g record => g.add (Plan.extremes.contributions record)) g
    ∃ e g, ((push (.boolean true)).run ([.text "pear"].foldl pushed minimum)).1 = .error e ∧
      (values.foldl pushed minimum).result = .text "apple" ∧
      Plan.extremes.newGroup {} = .ok g ∧
      (final g).results[0]? = some (.text "apple") ∧
      (final g).results[1]? = some (result (.count 3)) := by
  intro minimum values records final
  have hfails : ∃ e,
      ((push (.boolean true)).run ([.text "pear"].foldl pushed minimum)).1 = .error e := ⟨_, rfl⟩
  obtain ⟨e, he⟩ := hfails
  have hgroup : Plan.extremes.newGroup {} = .ok ⟨{}, [minimum, .count 0]⟩ := rfl
  obtain ⟨hskip, hrows⟩ := failing_leaves_no_trace
  refine ⟨e, _, he, (hskip minimum [.text "pear"] [.text "apple"] _ e he).trans rfl, hgroup, ?_, ?_⟩
  · obtain ⟨fresh, acc, hfresh, hfold, hresult⟩ := (hrows _ _ _ hgroup records).2 0 _ rfl
    obtain rfl : minimum = fresh := Except.ok.inj hfresh
    obtain rfl : .extremum .lt (some (.text "apple")) = acc := Except.ok.inj hfold
    exact hresult
  · obtain ⟨fresh, acc, hfresh, hfold, hresult⟩ := (hrows _ _ _ hgroup records).2 1 _ rfl
    obtain rfl : .count 0 = fresh := Except.ok.inj hfresh
    obtain rfl : .count 3 = acc := Except.ok.inj hfold
    exact hresult

end StreamSql
