/-
  No record is lost or counted twice.

  Where windows do not slide and nothing is left out of a batch, every record that was folded
  into windows comes to be in exactly one group of exactly one batch, once all windows have
  fired (`windowed_perm_fired`).  So the arrays that COLLECT makes of a field hold the values
  of these records.
-/
import StreamSql.Proofs.Balance

namespace StreamSql

variable {j : Job} {l : Ledger}

/-! ## Queries with their condition -/

namespace WindowedRun

variable {r : WindowedRun}

theorem run_step_follows (h : r.Follows j l) {e : Event} (he : j.plan.admits e = true) :
    ∃ r', (Run.windowed r).step e = .ok (⟨j.batches (l.step j e).1,
        (arrivals j.plan l.dial [e]).map Arrival.record⟩, .windowed r') ∧
      r'.Follows j (l.step j e).2 := by
  obtain ⟨r', hstep, h'⟩ := step_follows h e
  refine ⟨r', ?_, h'⟩
  cases e with
  | arrival now record =>
    have ha : (Run.windowed r).plan.accepts record = true := by
      rw [Run.plan, h.plan]
      exact he
    have hp : r.process now record = _ := hstep
    simp only [Run.step, Run.process, ha, hp, if_true]
    rfl
  | poll now => simp only [Run.step, Run.poll, Except.ok.inj hstep]; rfl
  | trigger => simp only [Run.step, Run.trigger, Except.ok.inj hstep]; rfl
  | discard =>
    obtain ⟨-, hd⟩ := Prod.mk.inj (Except.ok.inj hstep)
    simp only [Run.step, Run.discard, hd]
    rfl

/-- A record that fails the condition has no effect. -/
theorem run_step_refused (h : r.plan = j.plan) {e : Event} (he : j.plan.admits e = false) :
    (Run.windowed r).step e = .ok ({}, .windowed r) := by
  cases e with
  | arrival now record =>
    have ha : (Run.windowed r).plan.accepts record = false := by
      rw [Run.plan, h]
      exact he
    simp only [Run.step, Run.process, ha, Bool.false_eq_true, if_false]
    rfl
  | poll now => cases he
  | trigger => cases he
  | discard => cases he

/-- **A history of a query** is one of its windows, without the records that fail the
    condition. -/
theorem run_play_follows (events : List Event) (h : r.Follows j l) :
    ∃ r', (Run.windowed r).play events = .ok (⟨j.batches (l.play j (events.filter j.plan.admits)).1,
        (arrivals j.plan l.dial (events.filter j.plan.admits)).map Arrival.record⟩,
          .windowed r') ∧
      r'.Follows j (l.play j (events.filter j.plan.admits)).2 := by
  induction events generalizing r l with
  | nil => exact ⟨r, rfl, h⟩
  | cons e rest ih =>
    cases he : j.plan.admits e with
    | true =>
      obtain ⟨s, hstep, hs⟩ := run_step_follows h he
      obtain ⟨t, hrest, ht⟩ := ih hs
      rw [List.filter_cons_of_pos he]
      refine ⟨t, ?_, ht⟩
      rw [Run.play, hstep, arrivals_cons _ _ e (rest.filter _), ← Ledger.step_dial]
      refine bind_eq_ok.2 ⟨_, rfl, bind_eq_ok.2 ⟨_, hrest, ?_⟩⟩
      simp only [Ledger.play, Job.batches, List.map_append]
      rfl
    | false =>
      obtain ⟨t, hrest, ht⟩ := ih h
      rw [List.filter_cons_of_neg (by simp [he])]
      refine ⟨t, ?_, ht⟩
      rw [Run.play, run_step_refused h.plan he]
      exact bind_eq_ok.2 ⟨_, rfl, bind_eq_ok.2 ⟨_, hrest, rfl⟩⟩

end WindowedRun

/-! ## Batches that leave nothing out -/

namespace Plan

variable {p : Plan} {accs : List Accumulator}

/-- The row of a group with these records. -/
def rowOf (p : Plan) (substitute : Substitute) (accs : List Accumulator) (bounds : Bounds)
    (records : List Record) : Row :=
  p.project substitute (p.groupScope (p.groupOf accs records) bounds)

/-- Without HAVING, DISTINCT and LIMIT, **every group has its row in the batch**. -/
theorem batchOf_plain (hh : p.having = none) (hd : p.query.distinct = false)
    (hl : p.query.limit = none) (substitute : Substitute) (bounds : Bounds)
    (records : List Record) :
    p.batchOf substitute accs bounds records =
      ⟨(Groups.collect p.groupKey records).map fun g => p.rowOf substitute accs bounds g.2,
        some bounds⟩ := by
  have hrow : ∀ g : Group, p.groupRow? substitute bounds g =
      some (p.project substitute (p.groupScope g bounds)) := fun g => by
    simp [groupRow?, keeps, hh]
  simp only [batchOf, finish, hd, hl, hrow, groupsOf]
  simp [List.filterMap_eq_map', rowOf]

/-- A column of the result is what COLLECT makes of a field, and no later column has its name. -/
structure Collects (p : Plan) (column field : String) (index : Nat) : Prop where
  output : ∃ before after, p.outputs = before ++ .column column (.ofExpr (.slot index)) :: after ∧
    ∀ o ∈ after, ∃ name e, o = .column name e ∧ name ≠ column
  slot : ∃ s, p.slots[index]? = some s ∧ s.input = some (.ofExpr (.column field)) ∧
    s.create = .ok (.collect [])

/-- Later columns of other names leave a column as it is. -/
theorem get?_foldl_addOutput {substitute : Substitute} {scope : Scope} {column : String}
    {after : List Output} (h : ∀ o ∈ after, ∃ name e, o = .column name e ∧ name ≠ column)
    (row : Row) :
    Table.get? (after.foldl (addOutput substitute scope) row) column = Table.get? row column := by
  induction after generalizing row with
  | nil => rfl
  | cons o rest ih =>
    obtain ⟨name, e, rfl, hn⟩ := h o List.mem_cons_self
    refine (ih (fun o ho => h o (List.mem_cons_of_mem _ ho)) _).trans ?_
    exact Table.get?_insert_of_ne row _ hn

/-- COLLECT keeps the values that are not NULL. -/
theorem foldl_offer_collect {value : Record → Value} {records : List Record}
    (h : ∀ record ∈ records, (value record).isNull = false) (values : List Value) :
    records.foldl (fun acc record => Accumulator.offer acc (value record)) (.collect values) =
      Accumulator.collect (values ++ records.map value) := by
  induction records generalizing values with
  | nil => simp
  | cons record rest ih =>
    have hstep : (Accumulator.collect values).offer (value record) =
        .collect (values ++ [value record]) := by
      simp [Accumulator.offer, h record List.mem_cons_self, Accumulator.add]
    rw [List.foldl_cons, hstep, ih fun r hr => h r (List.mem_cons_of_mem _ hr)]
    simp

/-- **The array of a group** has the values of its records. -/
theorem Collects.get?_rowOf {column field : String} {index : Nat}
    (h : p.Collects column field index) (hp : p.newAccumulators = .ok accs)
    (substitute : Substitute) (bounds : Bounds) {records : List Record} (hne : records ≠ [])
    (hv : ∀ record ∈ records, (record.path field).isNull = false) :
    Table.get? (p.rowOf substitute accs bounds records) column =
      some (.array (records.map fun record => record.path field)) := by
  obtain ⟨before, after, hout, hafter⟩ := h.output
  obtain ⟨s, hs, hinput, hcreate⟩ := h.slot
  obtain ⟨acc, hacc, hi⟩ := accumulators_groupOf hp records hs
  obtain rfl := Except.ok.inj (hcreate.symm.trans hacc)
  have hc : s.contribution p.registry = fun record => record.path field := by
    funext record
    rw [Slot.contribution, hinput]
    rfl
  rw [hc, foldl_offer_collect hv] at hi
  have hres : (p.groupOf accs records).results[index]? =
      some (.array (records.map fun record => record.path field)) := by
    rw [Group.results, List.getElem?_map, hi]
    simp [Accumulator.result, hne]
  rw [rowOf, project, hout, List.foldl_append, List.foldl_cons, get?_foldl_addOutput hafter]
  refine (Table.get?_insert_self ..).trans (congrArg some ?_)
  simp only [columnValue, Compiled.eval, Compiled.ofExpr, Expr.eval, groupScope, hres]

end Plan

/-- The values in the arrays of a column. -/
def collected (column : String) (rows : List Row) : List Value :=
  rows.flatMap fun row =>
    match Table.get? (α := Value) row column with
    | some (.array values) => values
    | _ => []

/-- The arrays of a batch hold the values of the records in its groups. -/
theorem collected_batchOf {p : Plan} {accs : List Accumulator} {column field : String}
    {index : Nat} (h : p.Collects column field index) (hp : p.newAccumulators = .ok accs)
    (hh : p.having = none) (hd : p.query.distinct = false) (hl : p.query.limit = none)
    (substitute : Substitute) (bounds : Bounds) {records : List Record}
    (hv : ∀ record ∈ records, (record.path field).isNull = false) :
    (collected column (p.batchOf substitute accs bounds records).rows).Perm
      (records.map fun record => record.path field) := by
  have hgroup : ∀ g ∈ Groups.collect p.groupKey records,
      Table.get? (p.rowOf substitute accs bounds g.2) column =
        some (.array (g.2.map fun record => record.path field)) := fun g hg =>
    h.get?_rowOf hp substitute bounds (Groups.ne_nil_of_mem_collect hg) fun record hr =>
      hv record ((Groups.perm_collect records).mem_iff.1 (List.mem_flatMap.2 ⟨g, hg, hr⟩))
  rw [Plan.batchOf_plain hh hd hl, collected, List.flatMap_map,
    List.flatMap_congr (g := fun g => g.2.map fun record => record.path field)
    fun g hg => by rw [hgroup g hg]]
  rw [← List.map_flatMap]
  exact (Groups.perm_collect records).map _

/-! ## Histories -/

/-- **Every record that was folded into windows is in one group of one window** that fired, and
    every group has its row.  So the arrays that COLLECT makes of a field hold the values of
    these records. -/
structure Conserved (p : Plan) (substitute : Substitute) (accs : List Accumulator) (made : Yield)
    (windows : List (Bounds × List Record)) : Prop where
  batches : made.batches = windows.map fun w =>
    ⟨(Groups.collect p.groupKey w.2).map fun g => p.rowOf substitute accs w.1 g.2, some w.1⟩
  once : (windows.flatMap fun w => (Groups.collect p.groupKey w.2).flatMap Prod.snd).Perm
    made.windowed
  collected : ∀ column field index, p.Collects column field index →
    (∀ record ∈ made.windowed, (record.path field).isNull = false) →
    (made.batches.flatMap fun b => collected column b.rows).Perm
      (made.windowed.map fun record => record.path field)

/-- **No record is lost or counted twice.**  Where windows do not slide and nothing is left out
    of a batch, any history that drops no windows succeeds, and once all windows have fired
    the records that were folded into windows are those of the windows that fired. -/
theorem windowed_perm_fired {p : Plan} {config : Config} {accs : List Accumulator}
    (hp : p.newAccumulators = .ok accs) {spec : WindowSpec} (hw : p.window = some spec)
    (hs : ∀ size slide, spec ≠ .sliding size slide) (hh : p.having = none)
    (hd : p.query.distinct = false) (hl : p.query.limit = none) {events : List Event}
    (he : ∀ e ∈ events, e.keeps = true) :
    ∃ made r windows, (Run.start p config).play (events ++ [.trigger]) = .ok (made, r) ∧
      Conserved p config.substitute accs made windows := by
  let j : Job := ⟨p, config.substitute, config.lateness, accs, hp⟩
  let l : Ledger := { windows := .ofSpec spec }
  let all := (events ++ [Event.trigger]).filter p.admits
  have hl₀ : l.Sound := Ledger.ofSpec_sound spec
  have hstill : l.Still := fun size slide hg => by
    cases spec with
    | sliding a b => exact hs a b rfl
    | tumbling => cases hg
    | counting => cases hg
    | session => cases hg
  have hkeeps : ∀ e ∈ all, e.keeps = true := fun e hmem => by
    rcases List.mem_append.1 (List.mem_filter.1 hmem).1 with h | h
    · exact he e h
    · rw [List.mem_singleton.1 h]; rfl
  obtain ⟨r, hplay, -⟩ := WindowedRun.run_play_follows (events ++ [.trigger])
    (WindowedRun.start_follows spec config j rfl rfl)
  have hperm := Ledger.play_balance (j := j) all hl₀ hstill hkeeps
  -- the last event fires all windows, so that nothing is held
  have hheld : (l.play j all).2.held = [] := by
    have hsplit : all = events.filter p.admits ++ [Event.trigger] := List.filter_append ..
    rw [hsplit, Ledger.play_append]
    show ((l.play j _).2.settle _).2.held = []
    have hbefore := (Ledger.play_sound (j := j) (events.filter p.admits) hl₀
      (Ledger.ofSpec_filled spec)).1
    rw [Ledger.held, Ledger.settle_windows, OpenWindows.closeAll_ids hbefore.numbered.inOrder]
    rfl
  have hnone : l.held = [] := by rw [Ledger.held, OpenWindows.ofSpec_ids]; rfl
  rw [hheld, hnone, List.append_nil, List.nil_append] at hperm
  have hrecords := hperm.map Arrival.record
  rw [fired, List.map_flatMap] at hrecords
  have hcollect : ((l.play j all).1.flatMap fun f =>
      (Groups.collect p.groupKey (f.arrivals.map Arrival.record)).flatMap Prod.snd).Perm
        ((arrivals p l.dial all).map Arrival.record) :=
    (List.Perm.flatMap_left _ fun _ _ => Groups.perm_collect _).trans hrecords
  refine ⟨⟨j.batches (l.play j all).1, (arrivals p l.dial all).map Arrival.record⟩, .windowed r,
    (l.play j all).1.map fun f => (f.window.bounds, f.arrivals.map Arrival.record),
    ?_, ?_, ?_, fun column field index h hv => ?_⟩
  · rw [Run.start, hw]
    exact hplay
  · rw [List.map_map]
    exact List.map_congr_left fun f _ => Plan.batchOf_plain hh hd hl ..
  · rw [List.flatMap_map]
    exact hcollect
  · have hfired : ∀ f ∈ (l.play j all).1, ∀ record ∈ f.arrivals.map Arrival.record,
        (record.path field).isNull = false := fun f hf record hr =>
      hv record (hrecords.mem_iff.1 (List.mem_flatMap.2 ⟨f, hf, hr⟩))
    rw [Job.batches, List.flatMap_map]
    refine (List.Perm.flatMap_left _ fun f hf =>
      collected_batchOf h hp hh hd hl _ _ (hfired f hf)).trans ?_
    rw [← List.map_flatMap]
    exact hrecords.map _

/-- The second record opens a window, and the third one, which is late, the first window again. -/
theorem windowed_perm_fired_collectIds :
    ∃ made r windows, (Run.start .collectIds {}).play ([.arrival 0 (.numbered 1 3),
        .arrival 0 (.numbered 2 7), .arrival 0 (.numbered 3 4)] ++ [.trigger]) = .ok (made, r) ∧
      Conserved .collectIds .null [.collect []] made windows ∧
      made.windowed.length = 3 ∧ made.batches.length = 3 := by
  obtain ⟨made, r, windows, hplay, h⟩ : ∃ made r windows,
      (Run.start .collectIds {}).play ([.arrival 0 (.numbered 1 3), .arrival 0 (.numbered 2 7),
        .arrival 0 (.numbered 3 4)] ++ [.trigger]) = .ok (made, r) ∧
      Conserved .collectIds .null [.collect []] made windows :=
    windowed_perm_fired rfl rfl (by rintro _ _ ⟨⟩) rfl rfl rfl (by decide)
  have hlength : ((Run.start .collectIds {}).play ([.arrival 0 (.numbered 1 3),
      .arrival 0 (.numbered 2 7), .arrival 0 (.numbered 3 4)] ++ [.trigger])).toOption.map
        (fun y => (y.1.windowed.length, y.1.batches.length)) = some (3, 3) := by
    decide +kernel
  rw [hplay] at hlength
  obtain ⟨hw, hb⟩ := Prod.mk.inj (Option.some.inj hlength)
  exact ⟨made, r, windows, hplay, h, hw, hb⟩

end StreamSql
