/-
  Tumbling windows as windows that slide by their size.

  `Plan.trace_slid`: a query with a tumbling window and the same query with a sliding window of
  this size and slide give the same answers to every call, as long as the windows around the
  records are not cut off at the ends of the time line.

  * `Grid.starts_slid`: both grids find the same windows for a time;
  * `slid`: a query at work with the other kind of windows;
  * `fire_slid`, `settle_slid`, `process_slid`, `respond_slid`: each operation does the same to
    both, so that what holds of one step holds of a whole history (`trace_slid`).
-/
import StreamSql.Proofs.Delivery
import StreamSql.Proofs.Planning
import StreamSql.Proofs.Trace

namespace StreamSql

/-! ## Grids -/

namespace Grid

variable {size : Span} {time : Int64}

/-- Where the windows around a time are not cut off, one of them is found. -/
theorem Exact.catches (h : (sliding size size).Exact time) : (sliding size size).Catches time := by
  have hpos := size.positive
  have hle := Int.ediv_mul_le time.toInt (Int.ne_of_gt hpos)
  have hnext := Int.lt_ediv_add_one_mul_self time.toInt hpos
  rw [Int.add_mul, Int.one_mul] at hnext
  have hback : Word.least ≤ time.toInt - size.millis.toInt := h.looksBack
  obtain ⟨-, hend⟩ : Word.least ≤ time.toInt / size.millis.toInt * size.millis.toInt ∧
      time.toInt / size.millis.toInt * size.millis.toInt + size.millis.toInt ≤ Word.greatest :=
    h.bounds _ ⟨hle, hnext⟩
  constructor
  · omega
  · show Word.least < time.toInt / size.millis.toInt * size.millis.toInt
    omega

/-- One window ago, the time was in the window before. -/
theorem index_before (h : (sliding size size).Catches time) :
    size.index (size.before time) + 1 = size.index time := by
  have hpos := size.positive
  have htime := Word.toInt_bounds time
  have hbefore : (size.before time).toInt = max Word.least (min (time.toInt - size.millis.toInt)
      Word.greatest) := Word.toInt_nearest _
  have hle := Int.ediv_mul_le time.toInt (Int.ne_of_gt hpos)
  have hnext := Int.lt_ediv_add_one_mul_self time.toInt hpos
  have hmin : Word.least < time.toInt / size.millis.toInt * size.millis.toInt := h.2
  rw [Int.add_mul, Int.one_mul] at hnext
  unfold Span.index
  have hlo : time.toInt / size.millis.toInt - 1 ≤ (size.before time).toInt / size.millis.toInt := by
    rw [Int.le_ediv_iff_mul_le hpos, hbefore, Int.sub_mul, Int.one_mul]
    omega
  have hhi : (size.before time).toInt / size.millis.toInt < time.toInt / size.millis.toInt := by
    rw [Int.ediv_lt_iff_lt_mul hpos, hbefore]
    omega
  omega

/-- **Windows that slide by their size** are those that tumble. -/
theorem starts_sliding_self (h : (sliding size size).Catches time) :
    (sliding size size).starts time = (tumbling size).starts time := by
  have hpos := size.positive
  have htime := Word.toInt_bounds time
  have hle := Int.ediv_mul_le time.toInt (Int.ne_of_gt hpos)
  have hnext := Int.lt_ediv_add_one_mul_self time.toInt hpos
  have hmin : Word.least < time.toInt / size.millis.toInt * size.millis.toInt := h.2
  have hmax : time.toInt < Word.greatest := h.1
  rw [Int.add_mul, Int.one_mul] at hnext
  have hstart : (size.multiple (size.index time)).toInt =
      time.toInt / size.millis.toInt * size.millis.toInt :=
    Word.toInt_nearest_of_fits (Int.le_of_lt hmin) (by unfold Span.index; omega)
  have hend : time < size.after (size.multiple (size.index time)) := by
    rw [Int64.lt_iff_toInt_lt, Span.after, Word.addSat, hstart, Word.toInt_nearest]
    omega
  have hindices : indices (size.index time) (size.index time) = [size.index time] := by
    simp [indices]
  simp [starts, index_before h, hindices, hend]

/-- The grid with a sliding window for a tumbling one. -/
def slid : Grid → Grid
  | tumbling size => sliding size size
  | sliding size slide => sliding size slide

@[simp]
theorem size_slid (g : Grid) : g.slid.size = g.size := by
  cases g <;> rfl

theorem starts_slid {g : Grid} (h : g.slid.Catches time) : g.slid.starts time = g.starts time := by
  cases g with
  | tumbling size => exact starts_sliding_self h
  | sliding size slide => rfl

end Grid

/-! ## Open windows -/

namespace AlignedWindows

/-- The open windows on the other grid. -/
def slid (w : AlignedWindows) : AlignedWindows :=
  { w with grid := w.grid.slid }

@[simp]
theorem window_slid (w : AlignedWindows) : w.slid.window = w.window := by
  funext row
  simp [window, slid, Grid.bounds]

theorem enterAll_slid (starts : List Int64) (w : AlignedWindows) :
    w.slid.enterAll starts = Prod.map id slid (w.enterAll starts) := by
  induction starts generalizing w with
  | nil => rfl
  | cons start rest ih =>
    have hrest := ih { w with starts := (w.starts.enter start).2 }
    have hgrid : ({ w.slid with starts := (w.slid.starts.enter start).2 } : AlignedWindows) =
        slid { w with starts := (w.starts.enter start).2 } := rfl
    simp only [enterAll, hgrid, hrest, window_slid, Prod.map]
    rfl

theorem assign_slid {w : AlignedWindows} {time : Int64} (h : w.grid.slid.Catches time) :
    w.slid.assign time = Prod.map id slid (w.assign time) := by
  unfold assign
  rw [show w.slid.grid.starts time = w.grid.starts time from Grid.starts_slid h, enterAll_slid]
  rfl

theorem closeWhere_slid (w : AlignedWindows) (due : Int64 → Bool) :
    w.slid.closeWhere due = Prod.map id slid (w.closeWhere due) := by
  unfold closeWhere
  rw [window_slid]
  rfl

theorem closeDue_slid (w : AlignedWindows) (now : Int64) :
    w.slid.closeDue now = Prod.map id slid (w.closeDue now) := by
  have hcutoff : w.slid.grid.cutoff now = w.grid.cutoff now := by
    simp [Grid.cutoff, slid]
  unfold closeDue
  rw [closeWhere_slid, hcutoff]

end AlignedWindows

namespace OpenWindows

/-- The open windows on the other grid, if they have one. -/
def slid : OpenWindows → OpenWindows
  | aligned w => aligned w.slid
  | counting w => counting w
  | session w => session w

variable (w : OpenWindows)

@[simp]
theorem isTimeBased_slid : w.slid.isTimeBased = w.isTimeBased := by
  cases w <;> rfl

@[simp]
theorem count_slid : w.slid.count = w.count := by
  cases w with
  | aligned w => simp [slid, count, windows, AlignedWindows.opened, AlignedWindows.slid]
  | counting w => rfl
  | session w => rfl

/-- The windows of a record are not cut off on the other grid. -/
def Catches (time : Int64) : Prop :=
  ∀ g, w.grid? = some g → g.slid.Catches time

theorem assign_slid {w : OpenWindows} {time : Int64} (h : w.Catches time) (key : GroupKey) :
    w.slid.assign time key = Prod.map id slid (w.assign time key) := by
  cases w with
  | aligned w => simp only [slid, assign, AlignedWindows.assign_slid (h w.grid rfl), Prod.map]
  | counting w => rfl
  | session w => rfl

theorem takeReady_slid : w.slid.takeReady = Prod.map id slid w.takeReady := by
  cases w <;> rfl

theorem closeDue_slid (now : Int64) : w.slid.closeDue now = Prod.map id slid (w.closeDue now) := by
  cases w with
  | aligned w => simp only [slid, closeDue, AlignedWindows.closeDue_slid, Prod.map]
  | counting w => rfl
  | session w => rfl

theorem closeAll_slid : w.slid.closeAll = Prod.map id slid w.closeAll := by
  cases w with
  | aligned w =>
    simp only [slid, closeAll, AlignedWindows.closeAll, AlignedWindows.closeWhere_slid, Prod.map]
  | counting w => rfl
  | session w => rfl

end OpenWindows

/-! ## Plans -/

/-- The policy with sliding windows for tumbling ones. -/
def WindowSpec.slid : WindowSpec → WindowSpec
  | tumbling size => sliding size size
  | spec => spec

/-- The query with sliding windows for tumbling ones. -/
def Query.slid (q : Query) : Query :=
  { q with window := q.window.map WindowSpec.slid }

namespace Plan

/-- The plan with sliding windows for tumbling ones; nothing else of it depends on the windows. -/
def slid (p : Plan) : Plan :=
  { p with query := p.query.slid, window := p.window.map WindowSpec.slid }

variable (p : Plan) (record : Record)

@[simp]
theorem timestamp_slid : p.slid.timestamp = p.timestamp := rfl

@[simp]
theorem accepts_slid : p.slid.accepts record = p.accepts record := rfl

@[simp]
theorem groupKey_slid : p.slid.groupKey record = p.groupKey record := rfl

@[simp]
theorem contributions_slid : p.slid.contributions record = p.contributions record := rfl

end Plan

theorem OpenWindows.ofSpec_slid (spec : WindowSpec) :
    OpenWindows.ofSpec spec.slid = (OpenWindows.ofSpec spec).slid := by
  cases spec <;> rfl

/-! ## Runs with windows -/

namespace WindowedRun

/-- The query at work on the other grid. -/
def slid (r : WindowedRun) : WindowedRun :=
  { r with plan := r.plan.slid, windows := r.windows.slid }

variable (r : WindowedRun)

@[simp]
theorem plan_slid : r.slid.plan = r.plan.slid := rfl

@[simp]
theorem windows_slid : r.slid.windows = r.windows.slid := rfl

@[simp]
theorem arena_slid : r.slid.arena = r.arena := rfl

@[simp]
theorem hasEventTime_slid : r.slid.hasEventTime = r.hasEventTime := rfl

@[simp]
theorem watermark_slid : r.slid.watermark = r.watermark := rfl

@[simp]
theorem horizon_slid (time : Int64) : r.slid.horizon time = r.horizon time := rfl

@[simp]
theorem groupFor_slid (record : Record) (key : GroupKey) (w : Window) :
    r.slid.groupFor record key w = r.groupFor record key w := rfl

theorem start_slid (p : Plan) (spec : WindowSpec) (config : Config) :
    start p.slid spec.slid config = (start p spec config).slid := by
  unfold start slid
  rw [OpenWindows.ofSpec_slid]

theorem fireOne_slid (w : Window) : r.slid.fireOne w = Prod.map id slid (r.fireOne w) := by
  unfold fireOne
  rw [arena_slid]
  cases r.arena.groups w.id <;> rfl

theorem fire_slid (windows : List Window) (r : WindowedRun) :
    r.slid.fire windows = Prod.map id slid (r.fire windows) := by
  induction windows generalizing r with
  | nil => rfl
  | cons w rest ih =>
    simp only [fire, fireOne_slid, Prod.map, ih]
    rfl

/-- **Closed windows fire alike.** -/
theorem settle_slid (c : List Window × OpenWindows) :
    r.slid.settle (Prod.map id OpenWindows.slid c) = Prod.map id slid (r.settle c) :=
  fire_slid c.1 { r with windows := c.2 }

theorem recordTime_slid (now : Int64) (record : Record) :
    r.slid.recordTime now record = Prod.map id slid (r.recordTime now record) := by
  unfold recordTime
  rw [plan_slid, Plan.timestamp_slid]
  cases r.plan.timestamp with
  | none => rfl
  | some event =>
    simp only
    cases event.extract record <;> rfl

theorem noteLate_slid (windows : List Window) :
    r.slid.noteLate windows = (r.noteLate windows).slid := by
  have hlate : r.slid.isLate windows = r.isLate windows := by
    unfold isLate
    rw [watermark_slid, windows_slid, OpenWindows.isTimeBased_slid]
  unfold noteLate
  rw [hlate]
  cases r.isLate windows <;> rfl

theorem fold_slid (record : Record) (key : GroupKey) (contributions : List Value) (w : Window) :
    r.slid.fold record key contributions w = slid <$> r.fold record key contributions w := by
  unfold fold
  rw [groupFor_slid]
  cases r.groupFor record key w <;> rfl

theorem foldlM_slid (record : Record) (key : GroupKey) (contributions : List Value)
    (windows : List Window) (r : WindowedRun) :
    windows.foldlM (fun r w => r.fold record key contributions w) r.slid =
      slid <$> windows.foldlM (fun r w => r.fold record key contributions w) r := by
  induction windows generalizing r with
  | nil => rfl
  | cons w rest ih =>
    simp only [List.foldlM_cons, fold_slid]
    cases r.fold record key contributions w with
    | error e => rfl
    | ok s => exact ih s

theorem fireReady_slid : r.slid.fireReady = Prod.map id slid r.fireReady := by
  unfold fireReady
  rw [windows_slid, OpenWindows.takeReady_slid, settle_slid]

theorem fireDue_slid (now : Int64) : r.slid.fireDue now = Prod.map id slid (r.fireDue now) := by
  unfold fireDue
  rw [windows_slid, OpenWindows.closeDue_slid, settle_slid]

theorem fireOverdue_slid (time : Int64) :
    r.slid.fireOverdue time = Prod.map id slid (r.fireOverdue time) := by
  unfold fireOverdue
  rw [horizon_slid]
  cases r.horizon time with
  | none => rfl
  | some now => exact r.fireDue_slid now

/-- What the query does with a record once it knows its time. -/
def takeIn (r : WindowedRun) (record : Record) (time : Int64) :
    Except QueryError (List Batch × WindowedRun) := do
  let c := r.windows.assign time (r.plan.groupKey record)
  let ended := r.settle (c.1.closed, c.2)
  let s ← c.1.windows.foldlM
    (fun s w => s.fold record (r.plan.groupKey record) (r.plan.contributions record) w)
    (ended.2.noteLate c.1.windows)
  let due := s.fireReady.2.fireOverdue time
  return (ended.1 ++ s.fireReady.1 ++ due.1, due.2)

theorem process_eq (now : Int64) (record : Record) :
    r.process now record =
      (r.recordTime now record).2.takeIn record (r.recordTime now record).1 := by
  obtain ⟨fallbacks, htime⟩ := r.recordTime_eq now record
  unfold process
  rw [htime]
  rfl

theorem takeIn_slid {r : WindowedRun} {record : Record} {time : Int64} (h : r.windows.Catches time) :
    r.slid.takeIn record time = Prod.map id slid <$> r.takeIn record time := by
  unfold takeIn
  rw [plan_slid, windows_slid, Plan.groupKey_slid, Plan.contributions_slid,
    OpenWindows.assign_slid h]
  generalize r.windows.assign time (r.plan.groupKey record) = c
  have hended : r.slid.settle (c.1.closed, c.2.slid) =
      Prod.map id slid (r.settle (c.1.closed, c.2)) := r.settle_slid (c.1.closed, c.2)
  simp only [Prod.map, id, hended, noteLate_slid, foldlM_slid]
  cases c.1.windows.foldlM
    (fun s w => s.fold record (r.plan.groupKey record) (r.plan.contributions record) w)
    ((r.settle (c.1.closed, c.2)).2.noteLate c.1.windows) with
  | error e => rfl
  | ok s =>
    simp only [Except.map_ok, bind, Except.bind, pure, Except.pure, fireReady_slid,
      fireOverdue_slid, Prod.map, id]

/-- **A record does the same to both**, if its windows are not cut off. -/
theorem process_slid {now : Int64} {record : Record}
    (h : r.windows.Catches (r.timeOf now record)) :
    r.slid.process now record = Prod.map id slid <$> r.process now record := by
  obtain ⟨fallbacks, htime⟩ := r.recordTime_eq now record
  rw [process_eq, process_eq, recordTime_slid, htime]
  exact takeIn_slid h

theorem poll_slid (now : Int64) : r.slid.poll now = Prod.map id slid (r.poll now) := by
  unfold poll
  rw [hasEventTime_slid, watermark_slid]
  cases r.hasEventTime with
  | true =>
    simp only [if_true]
    cases r.watermark with
    | none => rfl
    | some mark => exact r.fireDue_slid mark
  | false => exact fireDue_slid (r.readClock now).2 (r.readClock now).1

theorem trigger_slid : r.slid.trigger = Prod.map id slid r.trigger := by
  unfold trigger
  rw [windows_slid, OpenWindows.closeAll_slid, settle_slid]

theorem discard_slid : r.slid.discard = Prod.map id slid r.discard := by
  unfold discard
  rw [windows_slid, OpenWindows.closeAll_slid]
  rfl

theorem stats_slid : r.slid.stats = r.stats := by
  unfold stats
  rw [windows_slid, OpenWindows.count_slid]
  rfl

end WindowedRun

/-! ## Histories -/

namespace Run

/-- The query at work with sliding windows for tumbling ones. -/
def slid : Run → Run
  | rows r => rows { r with plan := r.plan.slid }
  | windowed r => windowed r.slid

theorem start_slid (p : Plan) (config : Config) : start p.slid config = (start p config).slid := by
  unfold start
  cases h : p.window with
  | none => simp [Plan.slid, h, slid]
  | some spec =>
    simp only [Plan.slid, h, Option.map_some, slid, ← WindowedRun.start_slid]

variable {r : WindowedRun} {e : Event}

/-- The windows of the record that arrives are not cut off, if it passes WHERE. -/
def Catches (r : WindowedRun) (e : Event) : Prop :=
  ∀ now record, e = .arrival now record → r.plan.accepts record = true →
    r.windows.Catches (r.timeOf now record)

theorem stats?_slid (r : Run) : r.slid.stats? = r.stats? := by
  cases r with
  | rows r => rfl
  | windowed r => exact congrArg some r.stats_slid

theorem process_slid {now : Int64} {record : Record} (h : Catches r (.arrival now record)) :
    (windowed r.slid).process now record =
      Prod.map id slid <$> (windowed r).process now record := by
  unfold process
  rw [show (windowed r.slid).plan = r.plan.slid from rfl, Plan.accepts_slid]
  rw [show (windowed r).plan = r.plan from rfl]
  cases haccepts : r.plan.accepts record with
  | false => rfl
  | true =>
    simp only [if_true, WindowedRun.process_slid r (h now record rfl haccepts)]
    cases r.process now record <;> rfl

/-- **Every call is answered alike**, and leaves the queries as much alike as before. -/
theorem respond_slid (h : Catches r e) :
    (windowed r.slid).respond e = Prod.map id slid <$> (windowed r).respond e := by
  cases e with
  | arrival now record =>
    simp only [respond, process_slid h]
    cases hprocess : (windowed r).process now record with
    | error e => rfl
    | ok made =>
      simp only [Except.map_ok, bind, Except.bind, pure, Except.pure, Prod.map, id, stats?_slid]
  | poll now =>
    simp only [respond, poll, WindowedRun.poll_slid, Prod.map, stats?, WindowedRun.stats_slid]
    rfl
  | trigger =>
    simp only [respond, trigger, WindowedRun.trigger_slid, Prod.map, stats?, WindowedRun.stats_slid]
    rfl
  | discard =>
    simp only [respond, discard, WindowedRun.discard_slid, Prod.map, stats?, WindowedRun.stats_slid]
    rfl

/-- What a call leaves of the plan, the grid and the times that were seen. -/
theorem respond_kept {answer : Answer} {s : Run}
    (h : (windowed r).respond e = .ok (answer, s)) :
    ∃ t, s = windowed t ∧ t.plan = r.plan ∧ t.windows.grid? = r.windows.grid? ∧
      t.dial = if r.plan.admits e then r.dial.after r.plan e else r.dial := by
  have hstep : ∀ {batches t}, r.step e = .ok (batches, t) →
      t.plan = r.plan ∧ t.windows.grid? = r.windows.grid? ∧ t.dial = r.dial.after r.plan e := by
    intro batches t hstep
    obtain ⟨hwindows, hframe⟩ := WindowedRun.step_windows hstep
    obtain ⟨hplan, hframe⟩ := Prod.mk.inj hframe
    exact ⟨hplan, by rw [hwindows, WindowedRun.windowsAfter_grid?], (Prod.mk.inj hframe).2⟩
  cases e with
  | poll now =>
    obtain ⟨-, rfl⟩ := Prod.mk.inj (Except.ok.inj h)
    exact ⟨_, rfl, hstep rfl⟩
  | trigger =>
    obtain ⟨-, rfl⟩ := Prod.mk.inj (Except.ok.inj h)
    exact ⟨_, rfl, hstep rfl⟩
  | discard =>
    obtain ⟨-, rfl⟩ := Prod.mk.inj (Except.ok.inj h)
    exact ⟨_, rfl, hstep rfl⟩
  | arrival now record =>
    obtain ⟨⟨processed, s'⟩, hprocess, h⟩ := bind_eq_ok.1 h
    obtain ⟨-, rfl⟩ := Prod.mk.inj (Except.ok.inj h)
    unfold process at hprocess
    by_cases haccepts : (windowed r).plan.accepts record = true
    · have hadmits : r.plan.admits (.arrival now record) = true := haccepts
      rw [if_pos haccepts] at hprocess
      obtain ⟨⟨batches, t⟩, ht, hprocess⟩ := bind_eq_ok.1 hprocess
      obtain ⟨-, rfl⟩ := Prod.mk.inj (Except.ok.inj hprocess)
      rw [if_pos hadmits]
      exact ⟨t, rfl, hstep ht⟩
    · have hadmits : ¬r.plan.admits (.arrival now record) = true := haccepts
      rw [if_neg haccepts] at hprocess
      obtain ⟨-, rfl⟩ := Prod.mk.inj (Except.ok.inj hprocess)
      rw [if_neg hadmits]
      exact ⟨r, rfl, rfl, rfl, rfl⟩

/-- **Every history is answered alike**, by induction on the calls: none of them changes the plan
    or the grid, and the times of the records are the same for both. -/
theorem trace_slid (events : List Event) {r : WindowedRun}
    (h : ∀ a ∈ arrivals r.plan r.dial (events.filter r.plan.admits), r.windows.Catches a.time) :
    (windowed r.slid).trace events = Prod.map id slid <$> (windowed r).trace events := by
  induction events generalizing r with
  | nil => rfl
  | cons e rest ih =>
    have hfirst : Catches r e := by
      rintro now record rfl haccepts
      have hadmits : r.plan.admits (.arrival now record) = true := haccepts
      have hmem : (⟨r.timeOf now record, record⟩ : Arrival) ∈
          arrivals r.plan r.dial (.arrival now record :: rest.filter r.plan.admits) :=
        List.mem_cons_self
      rw [List.filter_cons_of_pos hadmits] at h
      exact h ⟨r.timeOf now record, record⟩ hmem
    rw [trace, trace, respond_slid hfirst]
    cases hrespond : (windowed r).respond e with
    | error e => rfl
    | ok made =>
      obtain ⟨answer, s⟩ := made
      obtain ⟨t, rfl, hplan, hgrid, hdial⟩ := respond_kept hrespond
      have hrest : ∀ a ∈ arrivals t.plan t.dial (rest.filter t.plan.admits),
          t.windows.Catches a.time := by
        intro a ha
        unfold OpenWindows.Catches
        rw [hgrid]
        apply h
        rw [hplan, hdial] at ha
        by_cases hadmits : r.plan.admits e = true
        · rw [if_pos hadmits] at ha
          rw [List.filter_cons_of_pos hadmits, arrivals_cons]
          exact List.mem_append_right _ ha
        · rw [if_neg hadmits] at ha
          rwa [List.filter_cons_of_neg hadmits]
      have hmore := ih hrest
      simp only [Except.map_ok, bind, Except.bind, Prod.map, id] at hmore ⊢
      rw [show slid (windowed t) = windowed t.slid from rfl, hmore]
      cases (windowed t).trace rest <;> rfl

end Run

/-! ## Queries -/

/-- A policy of at least a millisecond is valid exactly if it is with sliding windows. -/
theorem WindowSpec.check_slid {spec : WindowSpec}
    (h : ∀ size, spec = .tumbling size → 1 ≤ size.millis) : spec.slid.check = spec.check := by
  cases spec with
  | tumbling size =>
    have hsize : size.millis ≠ 0 := by
      have := h size rfl
      omega
    simp [slid, check, fault?, hsize]
  | sliding | counting | session => rfl

theorem Query.validate_slid {q : Query} {r : Registry}
    (h : ∀ size, q.window = some (.tumbling size) → 1 ≤ size.millis) :
    q.slid.validate r = q.validate r := by
  have haggregates : q.slid.checkAggregates r = q.checkAggregates r := by
    have hfault : q.slid.windowFault? r = q.windowFault? r := by
      unfold windowFault? slid
      cases q.window <;> rfl
    unfold checkAggregates
    rw [hfault]
    rfl
  have hwindow : q.slid.checkWindow = q.checkWindow := by
    have hcheck : q.slid.window.toList.forM WindowSpec.check =
        q.window.toList.forM WindowSpec.check := by
      unfold slid
      cases hspec : q.window with
      | none => rfl
      | some spec =>
        have hsame := WindowSpec.check_slid fun size hs => h size (hspec.trans (congrArg some hs))
        simp [hsame]
    unfold checkWindow
    rw [hcheck]
    rfl
  unfold validate
  rw [haggregates, hwindow]
  rfl

namespace Plan

/-- The plan of the query with sliding windows is that of the query, with sliding windows. -/
theorem build_slid {q : Query} {r : Registry}
    (h : ∀ size, q.window = some (.tumbling size) → 1 ≤ size.millis) :
    build q.slid r = slid <$> build q r := by
  unfold build
  simp only [Query.validate_slid h, map_bind, map_pure]
  rfl

/-- **Tumbling windows are sliding windows whose slide equals their size.**  A query is accepted
    with a tumbling window exactly if it is with the sliding one, or refused for the same reason;
    and then every call is answered alike: the outcome of each record, the batches of each firing
    with the bounds of their windows, the numbers about the windows.  This holds for records that
    are late or have no event time as well, and however the clock goes.  The records are those
    whose windows are not cut off (`Grid.Exact.catches`). -/
theorem trace_sliding_self (q : Query) (r : Registry) {size : Duration} (hsize : 1 ≤ size.millis) :
    let tumbling := build { q with window := some (.tumbling size) } r
    let sliding := build { q with window := some (.sliding size size) } r
    (∀ e, tumbling = .error e → sliding = .error e) ∧
      ∀ p, tumbling = .ok p → ∃ p', sliding = .ok p' ∧
        ∀ (config : Config) (events : List Event),
          (∀ a ∈ arrivals p {} (events.filter p.admits),
            (Grid.sliding (.ofDuration size) (.ofDuration size)).Catches a.time) →
          Prod.fst <$> (Run.start p' config).trace events =
            Prod.fst <$> (Run.start p config).trace events := by
  intro tumbling sliding
  have hsliding : sliding = slid <$> tumbling :=
    build_slid (q := { q with window := some (.tumbling size) }) fun _ h => by cases h; exact hsize
  refine ⟨fun e he => by rw [hsliding, he]; rfl, fun p hp => ?_⟩
  refine ⟨p.slid, by rw [hsliding, hp]; rfl, fun config events hcaught => ?_⟩
  have hwindow : p.window = some (.tumbling size) := window_of_build hp
  have hstart : Run.start p config = .windowed (.start p (.tumbling size) config) := by
    unfold Run.start
    rw [hwindow]
  have htrace := Run.trace_slid events (r := .start p (.tumbling size) config) fun a ha g hg => by
    cases hg
    exact hcaught a ha
  rw [Run.start_slid, hstart, show Run.slid (.windowed _) = .windowed _ from rfl, htrace]
  cases (Run.windowed (.start p (.tumbling size) config)).trace events <;> rfl

/-- `SELECT COUNT(*) AS n FROM s WITH (TIMESTAMP='ts')` in windows of 5 ms, with a record that is
    late, one without an event time and windows that are dropped. -/
theorem trace_sliding_self_late :
    let size : Duration := ⟨5000000⟩
    let counted (spec : WindowSpec) : Query :=
      ⟨[.column (.call "COUNT" []) (some "n")], false, "s", none, [], some spec, none, none,
        [("TIMESTAMP", "ts")]⟩
    let events : List Event := [.arrival 0 (.numbered 1 3), .arrival 0 (.numbered 2 12),
      .arrival 0 (.numbered 3 4), .arrival 20 ⟨[("ts", .null)]⟩, .poll 9, .trigger,
      .arrival 1 (.numbered 5 21), .discard]
    ∃ p p', build (counted (.tumbling size)) (.standard 0) = .ok p ∧
      build (counted (.sliding size size)) (.standard 0) = .ok p' ∧
      Prod.fst <$> (Run.start p' {}).trace events = Prod.fst <$> (Run.start p {}).trace events ∧
      (Prod.fst <$> (Run.start p {}).trace events).toOption.map
          (fun answers => answers.getLast?.bind Answer.stats) = some (some ⟨0, 4, 1, 1, some 21⟩) := by
  intro size counted events
  let tumbling := build (counted (.tumbling size)) (.standard 0)
  have hcaught : ∀ p ∈ tumbling.toOption, ∀ a ∈ arrivals p {} (events.filter p.admits),
      (Grid.sliding (.ofDuration size) (.ofDuration size)).Catches a.time := by
    decide +kernel
  have hstats : tumbling.toOption.map (fun p => (Prod.fst <$> (Run.start p {}).trace events).toOption
      |>.map fun answers => answers.getLast?.bind Answer.stats) =
        some (some (some ⟨0, 4, 1, 1, some 21⟩)) := by
    decide +kernel
  have hsize : 1 ≤ size.millis := by decide
  obtain ⟨-, hsame⟩ := trace_sliding_self (counted (.tumbling size)) (.standard 0) hsize
  cases hp : tumbling with
  | error e =>
    rw [hp] at hstats
    cases hstats
  | ok p =>
    rw [hp] at hstats hcaught
    obtain ⟨p', hp', htrace⟩ := hsame p hp
    exact ⟨p, p', hp, hp', htrace {} events (hcaught p rfl), Option.some.inj hstats⟩

end Plan

end StreamSql
