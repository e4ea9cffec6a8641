/-
  Windows that fire before the watermark has reached their end.

  A call closes windows at the watermark, so that one might expect none of them to have its end
  ahead of it.  There are two exceptions, and `process_early_iff` is that there are no others:

  * a record closes the session of its group when it is later than its end, however far the
    watermark stays behind the record;
  * the time one window before the watermark saturates, and a window that begins at the least
    time counts as passed.
-/
import StreamSql.Proofs.Grid
import StreamSql.Proofs.Sound

namespace StreamSql

/-- The watermark, if there is one, has not reached the end of a window. -/
def isAhead (mark : Option Int64) (stop : Int64) : Bool :=
  !mark.any fun mark => stop ≤ mark

@[simp]
theorem isAhead_none (stop : Int64) : isAhead none stop = true := rfl

@[simp]
theorem isAhead_some {mark stop : Int64} : isAhead (some mark) stop = true ↔ mark < stop := by
  simp only [isAhead, Option.any_some, Bool.not_eq_true', decide_eq_false_iff_not,
    Int64.le_iff_toInt_le, Int64.lt_iff_toInt_lt]
  omega

/-- The batch is that of a window whose end is ahead of the watermark. -/
def Batch.isEarly (mark : Option Int64) (b : Batch) : Bool :=
  b.window.any fun bounds => isAhead mark bounds.stop

/-- The closed windows whose end is ahead of the watermark are those that begin at the least
    time. -/
theorem Grid.lt_cutoff_ahead_iff {g : Grid} {now start : Int64} :
    start < g.cutoff now ∧ now < g.size.after start ↔
      start = Int64.minValue ∧ now < g.size.after start := by
  refine and_congr_left fun hahead => ?_
  rw [lt_cutoff_iff_of_ends, or_iff_right fun h => Int64.not_le.2 hahead h.1, and_iff_left hahead]

namespace OpenWindows

/-! ## Windows that were checked -/

/-- The end of no open window is reached. -/
def Settled (w : OpenWindows) (horizon : Option Int64) : Prop :=
  (w.closeHorizon horizon).1 = []

theorem settled_of_ids {w : OpenWindows} (hw : w.InOrder) (h : w.ids = [])
    (horizon : Option Int64) : w.Settled horizon := by
  have hp := (closeHorizon_closing hw horizon).perm
  rw [h] at hp
  exact List.map_eq_nil_iff.1 (List.append_eq_nil_iff.1 hp.symm.eq_nil).1

/-- Windows that were closed at a time are not closed at this time again. -/
theorem closeHorizon_settled {w : OpenWindows} (hw : w.InOrder) (horizon : Option Int64) :
    (w.closeHorizon horizon).2.Settled horizon := by
  cases horizon with
  | none => rfl
  | some now =>
    cases w with
    | aligned w =>
      simp [Settled, closeHorizon, closeDue, AlignedWindows.closeDue, AlignedWindows.closeWhere]
    | counting w => rfl
    | session w =>
      have hkept : (w.closeDue now).2.opened.InOrder (w.closeDue now).2.order :=
        closeDue_inOrder hw now
      show ((w.closeDue now).2.closeDue now).1 = []
      rw [SessionWindows.closeDue_eq hkept, SessionWindows.closeDue_eq hw]
      simp

@[simp]
theorem closeHorizon_isTimeBased (w : OpenWindows) (horizon : Option Int64) :
    (w.closeHorizon horizon).2.isTimeBased = w.isTimeBased := by
  cases horizon <;> cases w <;> rfl

@[simp]
theorem takeReady_isTimeBased (w : OpenWindows) : w.takeReady.2.isTimeBased = w.isTimeBased := by
  cases w <;> rfl

@[simp]
theorem closeAll_isTimeBased (w : OpenWindows) : w.closeAll.2.isTimeBased = w.isTimeBased := by
  cases w <;> rfl

@[simp]
theorem assign_isTimeBased (w : OpenWindows) (time : Int64) (key : GroupKey) :
    (w.assign time key).2.isTimeBased = w.isTimeBased := by
  cases w <;> rfl

/-! ## Windows that end early -/

/-- A record closes a window whose end is ahead of the watermark. -/
def endsEarly (w : OpenWindows) (time : Int64) (key : GroupKey) (mark : Option Int64) : Bool :=
  match w with
  | aligned w =>
    (w.starts.rows.any (fun row => row.1 = Int64.minValue) ||
      (w.grid.starts time).contains Int64.minValue) &&
        mark.any fun mark => mark < w.grid.size.after Int64.minValue
  | counting _ => false
  | session w =>
    (w.opened.get? key).any fun s => s.stop w.gap < time && isAhead mark (s.stop w.gap)

/-- The windows that the arrival of a record closes. -/
def closedBy (w : OpenWindows) (time : Int64) (key : GroupKey) (mark : Option Int64) :
    List Window :=
  let c := w.assign time key
  c.1.closed ++ c.2.takeReady.1 ++ (c.2.takeReady.2.closeHorizon mark).1

theorem enterAll_starts (starts : List Int64) (w : AlignedWindows) (start : Int64) :
    start ∈ (w.enterAll starts).2.starts.rows.map Prod.fst ↔
      start ∈ w.starts.rows.map Prod.fst ∨ start ∈ starts := by
  induction starts generalizing w with
  | nil => simp [AlignedWindows.enterAll]
  | cons first rest ih =>
    have hfirst : start ∈ (w.starts.enter first).2.rows.map Prod.fst ↔
        start ∈ w.starts.rows.map Prod.fst ∨ start = first := by
      cases hf : OpenStarts.find? first w.starts.rows with
      | some id =>
        have hmem := List.mem_map_of_mem (f := Prod.fst) (mem_of_find? hf)
        rw [OpenStarts.enter, hf]
        exact ⟨Or.inl, fun h => h.elim (fun h => h) fun h => h ▸ hmem⟩
      | none =>
        obtain ⟨t, he, hrows, -⟩ := enter_of_none hf
        rw [he, hrows, ((perm_place first w.starts.next w.starts.rows).map Prod.fst).mem_iff,
          List.map_cons, List.mem_cons, Or.comm]
    rw [AlignedWindows.enterAll, List.mem_cons, ← or_assoc, ← hfirst]
    exact ih { w with starts := (w.starts.enter first).2 }

theorem enterAll_grid (starts : List Int64) (w : AlignedWindows) :
    (w.enterAll starts).2.grid = w.grid := by
  induction starts generalizing w with
  | nil => rfl
  | cons start rest ih => exact ih { w with starts := (w.starts.enter start).2 }

theorem mem_expire {w : SessionWindows} {time : Int64} {key : GroupKey} {v : Window} :
    v ∈ (w.expire time key).1 ↔
      ∃ s, w.opened.get? key = some s ∧ s.stop w.gap < time ∧ v = s.window w.gap := by
  rw [SessionWindows.expire]
  cases w.opened.get? key with
  | none => simp
  | some s => by_cases h : s.stop w.gap < time <;> simp [h]

/-- Sessions that are due are not ahead of the watermark. -/
theorem isAhead_of_session_due {w : SessionWindows} (hw : (session w).InOrder)
    {mark : Option Int64} {v : Window} (hv : v ∈ ((session w).closeHorizon mark).1) :
    isAhead mark v.bounds.stop = false := by
  cases mark with
  | none => cases hv
  | some mark =>
    have hclosed : v ∈ (w.closeDue mark).1 := hv
    rw [SessionWindows.closeDue_eq hw] at hclosed
    obtain ⟨row, hrow, rfl⟩ := List.mem_map.1 hclosed
    have hle : row.2.stop w.gap ≤ mark := of_decide_eq_true (List.mem_filter.1 hrow).2
    show (!decide (row.2.stop w.gap ≤ mark)) = false
    rw [decide_eq_true hle]
    rfl

theorem session_closedBy_early_iff {w : SessionWindows} (hw : (session w).InOrder)
    (time : Int64) (key : GroupKey) (mark : Option Int64) :
    (∃ v ∈ (session w).closedBy time key mark, isAhead mark v.bounds.stop = true) ↔
      (session w).endsEarly time key mark = true := by
  have hmem : ∀ v, v ∈ (session w).closedBy time key mark ↔ v ∈ (w.expire time key).1 ∨
      v ∈ ((session (w.assign time key).2).closeHorizon mark).1 := fun v => by
    simp only [closedBy, assign, takeReady, List.append_nil, List.mem_append]
    rfl
  rw [endsEarly, Option.any_eq_true]
  constructor
  · rintro ⟨v, hv, hahead⟩
    rcases (hmem v).1 hv with hv | hv
    · obtain ⟨s, hg, hlt, rfl⟩ := mem_expire.1 hv
      exact ⟨s, hg, Bool.and_eq_true_iff.2 ⟨decide_eq_true hlt, hahead⟩⟩
    · rw [isAhead_of_session_due (assign_inOrder hw time key) hv] at hahead
      cases hahead
  · rintro ⟨s, hg, h⟩
    obtain ⟨hlt, hahead⟩ := Bool.and_eq_true_iff.1 h
    have hs := mem_expire.2 ⟨s, hg, of_decide_eq_true hlt, rfl⟩
    exact ⟨s.window w.gap, (hmem _).2 (Or.inl hs), hahead⟩

theorem aligned_closedBy_early_iff (w : AlignedWindows) (time : Int64) (key : GroupKey)
    (mark : Option Int64) :
    (∃ v ∈ (aligned w).closedBy time key mark, isAhead mark v.bounds.stop = true) ↔
      (aligned w).endsEarly time key mark = true := by
  have hgrid := enterAll_grid (w.grid.starts time) w
  have hopen : (w.starts.rows.any (fun row => row.1 = Int64.minValue) ||
      (w.grid.starts time).contains Int64.minValue) = true ↔
        ∃ row ∈ (w.enterAll (w.grid.starts time)).2.starts.rows, row.1 = Int64.minValue := by
    rw [← List.mem_map, enterAll_starts, Bool.or_eq_true, List.any_eq_true,
      List.contains_iff_mem, List.mem_map]
    simp
  cases mark with
  | none => simp [closedBy, assign, AlignedWindows.assign, takeReady, closeHorizon, endsEarly]
  | some mark =>
    rw [endsEarly, Bool.and_eq_true, hopen, Option.any_some, decide_eq_true_iff]
    simp only [closedBy, assign, AlignedWindows.assign, takeReady, List.nil_append, closeHorizon,
      closeDue, AlignedWindows.closeDue, AlignedWindows.closeWhere, isAhead_some, List.mem_map,
      List.mem_filter, decide_eq_true_iff, AlignedWindows.window, hgrid]
    constructor
    · rintro ⟨v, ⟨row, ⟨hrow, hcut⟩, rfl⟩, hahead⟩
      obtain ⟨hmin, hahead⟩ := Grid.lt_cutoff_ahead_iff.1 ⟨hcut, hahead⟩
      exact ⟨⟨row, hrow, hmin⟩, hmin ▸ hahead⟩
    · rintro ⟨⟨row, hrow, hmin⟩, hahead⟩
      rw [← hmin] at hahead
      have hcut := (Grid.lt_cutoff_ahead_iff.2 ⟨hmin, hahead⟩).1
      exact ⟨_, ⟨row, ⟨hrow, hcut⟩, rfl⟩, hahead⟩

/-- **A record closes a window early** in no other way. -/
theorem closedBy_early_iff {w : OpenWindows} (hl : w.InOrder) (hw : w.isTimeBased = true)
    (time : Int64) (key : GroupKey) (mark : Option Int64) :
    (∃ v ∈ w.closedBy time key mark, isAhead mark v.bounds.stop = true) ↔
      w.endsEarly time key mark = true := by
  cases w with
  | aligned w => exact aligned_closedBy_early_iff w time key mark
  | counting w => cases hw
  | session w => exact session_closedBy_early_iff hl time key mark

end OpenWindows

/-! ## Histories -/

namespace Ledger

variable {j : Job} {l : Ledger}

/-- The end of no open window is reached. -/
def Settled (j : Job) (l : Ledger) : Prop :=
  l.windows.Settled (l.dial.horizon j.plan j.lateness)

theorem fireDue_settled (h : l.windows.InOrder) : (l.fireDue j).2.Settled j := by
  rw [Settled, fireDue_dial, fireDue, settle_windows]
  exact OpenWindows.closeHorizon_settled h _

theorem step_settled (h : l.Sound) (e : Event) : (l.step j e).2.Settled j := by
  have hl := h.numbered.inOrder
  cases e with
  | arrival now record =>
    obtain ⟨kept, opened, hc⟩ := OpenWindows.assign_assigning hl (l.arrivalOf j now record).time
      (j.plan.groupKey record)
    have hfull := full_sound (j := j) (l := l.dated j now record) ⟨h.numbered, h.outside⟩
      (l.arrivalOf j now record) hc
    exact fireDue_settled hfull.numbered.inOrder
  | poll now => exact fireDue_settled (l := { l with dial := l.dial.after j.plan (.poll now) }) hl
  | trigger =>
    show (l.settle l.windows.closeAll).2.windows.Settled _
    rw [settle_windows]
    exact OpenWindows.settled_of_ids (OpenWindows.closeAll_inOrder hl)
      (OpenWindows.closeAll_ids hl) _
  | discard =>
    exact OpenWindows.settled_of_ids (OpenWindows.closeAll_inOrder hl)
      (OpenWindows.closeAll_ids hl) _

theorem step_isTimeBased (l : Ledger) (e : Event) :
    (l.step j e).2.windows.isTimeBased = l.windows.isTimeBased := by
  cases e with
  | arrival now record =>
    show (accept j _ _ _).2.windows.isTimeBased = _
    simp [accept, fireDue, fireReady]
  | poll now => simp [step, fireDue]
  | trigger => simp [step]
  | discard => simp [step]

/-- **Every history** leaves no window open whose end is reached. -/
theorem play_settled (events : List Event) (hl : l.Sound) (h : l.Settled j) :
    (l.play j events).2.Settled j := by
  induction events generalizing l with
  | nil => exact h
  | cons e rest ih => exact ih (step_sound hl e) (step_settled hl e)

theorem play_isTimeBased (events : List Event) :
    (l.play j events).2.windows.isTimeBased = l.windows.isTimeBased := by
  induction events generalizing l with
  | nil => rfl
  | cons e rest ih => exact ih.trans (step_isTimeBased l e)

/-- Without a new event time nothing fires. -/
theorem poll_fires_nothing (h : l.Settled j) (ht : j.plan.timestamp.isSome = true) (now : Int64) :
    (l.step j (.poll now)).1 = [] := by
  have hdial : l.dial.after j.plan (.poll now) = l.dial := if_pos ht
  show (fireDue j { l with dial := l.dial.after j.plan (.poll now) }).1 = []
  rw [hdial, fireDue, settle, show (l.windows.closeHorizon _).1 = [] from h]
  rfl

/-- The windows that the arrival of a record fires. -/
theorem arrive_fires (h : l.Sound) (hf : l.Filled) (now : Int64) (record : Record) :
    (l.arrive j now record).1.map Firing.window =
      l.windows.closedBy (l.arrivalOf j now record).time (j.plan.groupKey record)
        ((l.dated j now record).dial.horizon j.plan j.lateness) := by
  obtain ⟨kept, opened, hc⟩ := OpenWindows.assign_assigning h.numbered.inOrder
    (l.arrivalOf j now record).time (j.plan.groupKey record)
  exact accept_fires (l := l.dated j now record) ⟨h.numbered, h.outside⟩ _ hc hf

end Ledger

theorem Job.exists_early_iff (j : Job) (firings : List Firing) (mark : Option Int64) :
    (∃ b ∈ j.batches firings, b.isEarly mark = true) ↔
      ∃ v ∈ firings.map Firing.window, isAhead mark v.bounds.stop = true := by
  simp [Job.batches, Batch.isEarly, Plan.batchOf]

namespace WindowedRun

/-- A record closes a window whose end is ahead of the watermark: the session of its group, or a
    window at the least time. -/
def endsEarly (r : WindowedRun) (now : Int64) (record : Record) : Bool :=
  let dial := r.dial.after r.plan (.arrival now record)
  r.windows.endsEarly (dial.timeOf r.plan record) (r.plan.groupKey record)
    (dial.watermark r.lateness)

/-- **Windows that fire early.**  A query with event time is polled in vain after any history,
    and a record makes a batch of a window whose end is ahead of the watermark exactly if it
    closes the session of its group, or a window at the least time, before the watermark
    does. -/
theorem process_early_iff {p : Plan} {config : Config} {accs : List Accumulator}
    (hp : p.newAccumulators = .ok accs) (ht : p.timestamp.isSome = true) {spec : WindowSpec}
    (hs : spec.isTimeBased = true) (events : List Event) :
    ∃ past r, (start p spec config).play events = .ok (past, r) ∧
      (∀ now, (r.poll now).1 = []) ∧
      ∀ now record, ∃ batches s, r.process now record = .ok (batches, s) ∧
        ((∃ b ∈ batches, b.isEarly s.watermark = true) ↔ r.endsEarly now record = true) := by
  let j : Job := ⟨p, config.substitute, config.lateness, accs, hp⟩
  let l : Ledger := { windows := .ofSpec spec }
  obtain ⟨r, hplay, hr⟩ := play_follows events (start_follows spec config j rfl rfl)
  obtain ⟨hsound, hfilled⟩ := Ledger.play_sound (j := j) events (Ledger.ofSpec_sound spec)
    (Ledger.ofSpec_filled spec)
  have hsettled : (l.play j events).2.Settled j :=
    Ledger.play_settled events (Ledger.ofSpec_sound spec) (OpenWindows.settled_of_ids
      (OpenWindows.ofSpec_inOrder spec) (OpenWindows.ofSpec_ids spec) _)
  have hlisted : r.windows.InOrder := hr.windows ▸ hsound.numbered.inOrder
  have htime : r.windows.isTimeBased = true := by
    rw [hr.windows, Ledger.play_isTimeBased]
    cases spec <;> first | rfl | cases hs
  refine ⟨_, r, hplay, fun now => ?_, fun now record => ?_⟩
  · obtain ⟨s, hpoll, -⟩ := poll_follows hr now
    rw [hpoll, Ledger.poll_fires_nothing hsettled ht]
    rfl
  · obtain ⟨s, hprocess, hs⟩ := process_follows hr now record
    refine ⟨_, s, hprocess, ?_⟩
    have hdial : s.dial = r.dial.after r.plan (.arrival now record) := by
      rw [hs.dial, hr.dial, hr.plan]
      exact Ledger.step_dial j _ (.arrival now record)
    have hmark : s.watermark =
        (r.dial.after r.plan (.arrival now record)).watermark r.lateness := by
      rw [watermark_eq, hdial, hs.lateness, hr.lateness]
    -- with event time, the horizon of the ledger is the watermark of the run
    have hhorizon : ((l.play j events).2.dated j now record).dial.horizon j.plan j.lateness =
        (r.dial.after r.plan (.arrival now record)).watermark r.lateness := by
      rw [hr.dial, hr.plan, hr.lateness]
      exact if_pos ht
    have harrival : ((l.play j events).2.arrivalOf j now record).time =
        (r.dial.after r.plan (.arrival now record)).timeOf r.plan record := by
      rw [hr.dial, hr.plan]
      rfl
    rw [Job.exists_early_iff, Ledger.arrive_fires hsound hfilled, hhorizon, harrival, hmark,
      ← hr.windows, show j.plan = r.plan from hr.plan.symm]
    exact OpenWindows.closedBy_early_iff hlisted htime ..

/-- `SELECT COLLECT(id) AS ids FROM s GROUP BY SessionWindow('5ms')` with the time of an event
    and 100 milliseconds of lateness: the record at 6 closes the session of the record at 0,
    whose end is at 5, while the watermark is at -94. -/
theorem process_early_iff_session :
    ∃ past r, (start .collectIds (.session ⟨5000000⟩) { lateness := 100 }).play
        [.arrival 0 (.numbered 1 0)] = .ok (past, r) ∧
      ∃ batches s, r.process 0 (.numbered 2 6) = .ok (batches, s) ∧
        ∃ b ∈ batches, b.isEarly s.watermark = true := by
  obtain ⟨past, r, hplay, -, h⟩ := @process_early_iff .collectIds { lateness := 100 }
    [.collect []] rfl rfl (.session ⟨5000000⟩) rfl [.arrival 0 (.numbered 1 0)]
  have hends : ((start .collectIds (.session ⟨5000000⟩) { lateness := 100 }).play
      [.arrival 0 (.numbered 1 0)]).toOption.map
        (fun y => y.2.endsEarly 0 (.numbered 2 6)) = some true := by
    decide +kernel
  rw [hplay] at hends
  obtain ⟨batches, s, hprocess, hiff⟩ := h 0 (.numbered 2 6)
  exact ⟨past, r, hplay, batches, s, hprocess, hiff.2 (Option.some.inj hends)⟩

end WindowedRun

end StreamSql
