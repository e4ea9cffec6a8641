/-
  Windows whose end the horizon has reached.

  `play_not_overdue`: at every point of every history of calls that succeeded, the query has seen
  the event times and the readings of the clock of these calls, and the horizon that they give is
  before the end of every open window whose end is a word.  A record for a window that is over
  opens it for the length of its call: the window fires before the call returns.

  * `WindowedRun.windowsAfter`: the windows that an event leaves open, beside
    `WindowedRun.closes`;
  * `OpenWindows.Fits`: the end of a window does not saturate;
  * `lt_stop_of_settled`: the end of a window that was checked is ahead;
  * `WindowedRun.windowsOf`: the windows that a record comes into.
-/
import StreamSql.Proofs.InStep

namespace StreamSql

/-- A window that is not closed at a time ends after it, if its end is a word. -/
theorem Grid.lt_after_of_cutoff_le {g : Grid} {now start : Int64} (h : ¬ start < g.cutoff now)
    (hfits : start.toInt + g.length ≤ Word.greatest) : now < g.size.after start := by
  by_contra hle
  exact h (lt_cutoff_iff_of_ends.2
    (.inl ⟨Int64.not_lt.1 hle, fun hlast => Int.not_lt.2 hfits hlast.2⟩))

namespace OpenWindows

variable {w : OpenWindows} {v : Window}

/-! ## Windows that were checked -/

/-- The end of the window does not saturate; that of a session need not be a word. -/
def Fits (w : OpenWindows) (v : Window) : Prop :=
  ∀ g, w.grid? = some g → v.bounds.start.toInt + g.length ≤ Word.greatest

/-- **The end of a window that was checked is ahead.** -/
theorem lt_stop_of_settled (hl : w.InOrder) (ht : w.isTimeBased = true) {now : Int64}
    (h : w.Settled (some now)) (hv : v ∈ w.windows) (hfits : w.Fits v) : now < v.bounds.stop := by
  cases w with
  | aligned w =>
    obtain ⟨row, hrow, rfl⟩ := List.mem_map.1 hv
    have hnone := List.filter_eq_nil_iff.1 (List.map_eq_nil_iff.1 h) row hrow
    have hnot : ¬ row.1 < w.grid.cutoff now := fun hlt => hnone (decide_eq_true hlt)
    exact Grid.lt_after_of_cutoff_le hnot (hfits w.grid rfl)
  | counting w => cases ht
  | session w =>
    obtain ⟨row, hrow, rfl⟩ := List.mem_map.1 hv
    have hclosed : (w.closeDue now).1 = [] := h
    rw [SessionWindows.closeDue_eq hl] at hclosed
    have hnone := List.filter_eq_nil_iff.1 (List.map_eq_nil_iff.1 hclosed) row hrow
    have hnot : ¬ row.2.stop w.gap ≤ now := fun hle => hnone (decide_eq_true hle)
    exact Int64.not_le.1 hnot

theorem mem_filter_or {α : Type} (f : α → Window) (due : α → Bool) {rows : List α}
    (hv : v ∈ rows.map f) :
    v ∈ (rows.filter due).map f ∨ v ∈ (rows.filter fun row => !due row).map f := by
  rw [← List.mem_append, ← List.map_append]
  exact ((List.filter_append_perm due rows).map f).mem_iff.2 hv

/-- A window that was open is closed or still open. -/
theorem mem_closeHorizon (hl : w.InOrder) (horizon : Option Int64) (hv : v ∈ w.windows) :
    v ∈ (w.closeHorizon horizon).1 ∨ v ∈ (w.closeHorizon horizon).2.windows := by
  cases horizon with
  | none => exact .inr hv
  | some now =>
    cases w with
    | aligned w => exact mem_filter_or w.window (fun row => row.1 < w.grid.cutoff now) hv
    | counting w => exact .inr hv
    | session w =>
      show v ∈ (w.closeDue now).1 ∨ v ∈ (w.closeDue now).2.opened.map fun row => row.2.window w.gap
      rw [SessionWindows.closeDue_eq hl]
      exact mem_filter_or (fun row : GroupKey × Session => row.2.window w.gap)
        (fun row => row.2.stop w.gap ≤ now) hv

theorem takeReady_windows (w : OpenWindows) : w.takeReady.2.windows = w.windows := by
  cases w <;> rfl

/-! ## Windows of a record -/

theorem mem_enter (t : OpenStarts) (start : Int64) :
    (start, (t.enter start).1) ∈ (t.enter start).2.rows ∧ t.rows ⊆ (t.enter start).2.rows := by
  cases hf : OpenStarts.find? start t.rows with
  | some id =>
    rw [OpenStarts.enter, hf]
    exact ⟨mem_of_find? hf, List.Subset.refl _⟩
  | none =>
    obtain ⟨t', he, hrows, -⟩ := enter_of_none hf
    have hperm := perm_place start t.next t.rows
    rw [he, hrows]
    exact ⟨hperm.mem_iff.2 List.mem_cons_self, fun row hrow =>
      hperm.mem_iff.2 (List.mem_cons_of_mem _ hrow)⟩

/-- Open windows stay open, and those of the record are open. -/
theorem enterAll_opened (starts : List Int64) (w : AlignedWindows) :
    w.opened ⊆ (w.enterAll starts).2.opened ∧
      (w.enterAll starts).1 ⊆ (w.enterAll starts).2.opened := by
  induction starts generalizing w with
  | nil => exact ⟨List.Subset.refl _, List.nil_subset _⟩
  | cons start rest ih =>
    obtain ⟨hnew, hold⟩ := mem_enter w.starts start
    obtain ⟨hkept, hrest⟩ := ih { w with starts := (w.starts.enter start).2 }
    rw [AlignedWindows.enterAll]
    refine ⟨fun v hv => hkept (List.map_subset _ hold hv), fun v hv => ?_⟩
    rcases List.mem_cons.1 hv with rfl | hv
    · rw [show AlignedWindows.window _ _ = w.window (start, (w.starts.enter start).1) from
        congrArg (fun g => (⟨_, Grid.bounds g start⟩ : Window)) (enterAll_grid rest _)]
      exact hkept (List.mem_map_of_mem (f := w.window) hnew)
    · exact hrest hv

theorem mem_insert_windows (t : Groups Session) (key : GroupKey) (s : Session) (gap : Span) :
    s.window gap ∈ (t.insert key s).map fun row => row.2.window gap := by
  obtain ⟨row, hrow, he⟩ := List.mem_map.1 ((t.insert_perm key s).mem_iff.2 List.mem_cons_self)
  exact List.mem_map.2 ⟨row, hrow, he ▸ rfl⟩

/-- **A record comes into windows that are open** once it has arrived. -/
theorem assigned_open (ht : w.isTimeBased = true) (time : Int64) (key : GroupKey) :
    (w.assign time key).1.windows ⊆ (w.assign time key).2.windows := by
  cases w with
  | aligned w => exact (enterAll_opened (w.grid.starts time) w).2
  | counting w => cases ht
  | session w =>
    -- the session of the record is the one that was entered last
    show (w.assign time key).1.windows ⊆
      (w.assign time key).2.opened.map fun row => row.2.window (w.assign time key).2.gap
    obtain ⟨s, hjoin⟩ := SessionWindows.exists_join (w.expire time key).2 time key
    have hgap := SessionWindows.openFor_gap (w.expire time key).2 time key
    simp only [SessionWindows.assign, hjoin, hgap]
    exact List.cons_subset.2 ⟨mem_insert_windows .., List.nil_subset _⟩

/-- A window of the record is closed by its arrival or stays open. -/
theorem mem_closedBy (hl : w.InOrder) (ht : w.isTimeBased = true) {time : Int64}
    {key : GroupKey} (mark : Option Int64) (hv : v ∈ (w.assign time key).1.windows) :
    v ∈ w.closedBy time key mark ∨ v ∈ (w.afterRecord time key mark).windows := by
  have hopen : v ∈ (w.assign time key).2.takeReady.2.windows := by
    rw [takeReady_windows]
    exact assigned_open ht time key hv
  exact (mem_closeHorizon (takeReady_inOrder (assign_inOrder hl time key)) mark hopen).imp_left
    fun h => List.mem_append_right _ h

end OpenWindows

namespace WindowedRun

variable {r s : WindowedRun} {batches : List Batch}

/-! ## Windows that an event leaves open -/

/-- The windows that an event leaves open. -/
def windowsAfter (r : WindowedRun) : Event → OpenWindows
  | .arrival now record =>
    let dial := r.dial.after r.plan (.arrival now record)
    r.windows.afterRecord (dial.timeOf r.plan record) (r.plan.groupKey record)
      (dial.horizon r.plan r.lateness)
  | .poll now =>
    (r.windows.closeHorizon ((r.dial.after r.plan (.poll now)).horizon r.plan r.lateness)).2
  | .trigger | .discard => r.windows.closeAll.2

theorem fire_kept (windows : List Window) (r : WindowedRun) :
    (r.fire windows).2.windows = r.windows ∧ (r.fire windows).2.frame = r.frame := by
  induction windows generalizing r with
  | nil => exact ⟨rfl, rfl⟩
  | cons w rest ih =>
    have hone : (r.fireOne w).2.windows = r.windows ∧ (r.fireOne w).2.frame = r.frame := by
      unfold fireOne
      split <;> exact ⟨rfl, rfl⟩
    obtain ⟨hwindows, hframe⟩ := ih (r.fireOne w).2
    exact ⟨hwindows.trans hone.1, hframe.trans hone.2⟩

theorem settle_windows (r : WindowedRun) (c : List Window × OpenWindows) :
    (r.settle c).2.windows = c.2 :=
  (fire_kept c.1 { r with windows := c.2 }).1

theorem settle_frame (r : WindowedRun) (c : List Window × OpenWindows) :
    (r.settle c).2.frame = r.frame :=
  (fire_kept c.1 { r with windows := c.2 }).2

theorem foldlM_kept {record : Record} {key : GroupKey} {contributions : List Value}
    {windows : List Window}
    (h : windows.foldlM (fun r w => r.fold record key contributions w) r = .ok s) :
    s.windows = r.windows ∧ s.frame = r.frame := by
  induction windows generalizing r with
  | nil =>
    obtain rfl := Except.ok.inj h
    exact ⟨rfl, rfl⟩
  | cons w rest ih =>
    rw [List.foldlM_cons] at h
    obtain ⟨t, ht, h⟩ := bind_eq_ok.1 h
    obtain ⟨group, -, ht⟩ := bind_eq_ok.1 ht
    obtain rfl := Except.ok.inj ht
    exact ih (r := { r with arena := r.arena.set w.id _ }) h

/-- The windows after a record, and the times that the query has seen. -/
theorem process_windows {now : Int64} {record : Record}
    (h : r.process now record = .ok (batches, s)) :
    s.windows = r.windowsAfter (.arrival now record) ∧
      s.frame = (r.plan, r.lateness, r.dial.after r.plan (.arrival now record)) := by
  obtain ⟨fallbacks, htime⟩ := r.recordTime_eq now record
  unfold process at h
  simp only [htime] at h
  obtain ⟨r₁, hfold, h⟩ := bind_eq_ok.1 h
  obtain ⟨hwindows, hframe⟩ := foldlM_kept hfold
  obtain ⟨-, hlate, -, hlate'⟩ := noteLate_same (settle _ _).2 _
  rw [hlate, settle_windows] at hwindows
  rw [hlate', settle_frame] at hframe
  have hfull : (r₁.fireReady).2.frame =
      (r.plan, r.lateness, r.dial.after r.plan (.arrival now record)) :=
    (settle_frame ..).trans hframe
  rw [fireOverdue_eq, horizon_eq hfull] at h
  obtain ⟨-, rfl⟩ := Prod.mk.inj (Except.ok.inj h)
  refine ⟨?_, (settle_frame ..).trans hfull⟩
  rw [settle_windows, fireReady, settle_windows, hwindows]
  rfl

theorem poll_windows (r : WindowedRun) (now : Int64) :
    (r.poll now).2.windows = r.windowsAfter (.poll now) ∧
      (r.poll now).2.frame = (r.plan, r.lateness, r.dial.after r.plan (.poll now)) := by
  unfold poll hasEventTime windowsAfter Dial.horizon Dial.after
  rw [watermark_eq]
  cases r.plan.timestamp with
  | some event =>
    simp only [Option.isSome_some, if_true]
    cases r.dial.watermark r.lateness with
    | none => exact ⟨rfl, rfl⟩
    | some mark => exact ⟨settle_windows .., settle_frame ..⟩
  | none => exact ⟨settle_windows .., settle_frame ..⟩

/-- **What one event leaves**, unless it fails. -/
theorem step_windows {e : Event} (h : r.step e = .ok (batches, s)) :
    s.windows = r.windowsAfter e ∧ s.frame = (r.plan, r.lateness, r.dial.after r.plan e) := by
  cases e with
  | arrival now record => exact process_windows h
  | poll now =>
    rw [← show (r.poll now).2 = s from congrArg Prod.snd (Except.ok.inj h)]
    exact poll_windows r now
  | trigger =>
    rw [← show r.trigger.2 = s from congrArg Prod.snd (Except.ok.inj h)]
    exact ⟨settle_windows .., settle_frame ..⟩
  | discard =>
    obtain rfl : r.discard.2 = s := congrArg Prod.snd (Except.ok.inj h)
    exact ⟨rfl, rfl⟩

theorem windowsAfter_isTimeBased (r : WindowedRun) (e : Event) :
    (r.windowsAfter e).isTimeBased = r.windows.isTimeBased := by
  cases e <;> simp [windowsAfter, OpenWindows.afterRecord]

theorem windowsAfter_inOrder (h : r.windows.InOrder) (e : Event) : (r.windowsAfter e).InOrder := by
  cases e with
  | arrival now record =>
    exact OpenWindows.closeHorizon_inOrder
      (OpenWindows.takeReady_inOrder (OpenWindows.assign_inOrder h _ _)) _
  | poll now => exact OpenWindows.closeHorizon_inOrder h _
  | trigger => exact OpenWindows.closeAll_inOrder h
  | discard => exact OpenWindows.closeAll_inOrder h

theorem windowsAfter_grid? (r : WindowedRun) (e : Event) :
    (r.windowsAfter e).grid? = r.windows.grid? := by
  cases e with
  | arrival now record =>
    exact (OpenWindows.closeHorizon_grid ..).trans
      ((OpenWindows.takeReady_grid _).trans (OpenWindows.assign_grid ..))
  | poll now => exact OpenWindows.closeHorizon_grid ..
  | trigger => exact OpenWindows.closeAll_grid _
  | discard => exact OpenWindows.closeAll_grid _

/-! ## Windows that are not overdue -/

/-- The end of no open window is reached. -/
def Settled (r : WindowedRun) : Prop :=
  r.windows.Settled (r.dial.horizon r.plan r.lateness)

theorem start_settled (p : Plan) (spec : WindowSpec) (config : Config) :
    (start p spec config).Settled :=
  OpenWindows.settled_of_ids (OpenWindows.ofSpec_inOrder spec) (OpenWindows.ofSpec_ids spec) _

/-- **One event** leaves no window open whose end is reached. -/
theorem step_settled (hr : r.Sound) {e : Event} (h : r.step e = .ok (batches, s)) :
    s.Settled := by
  have hl := hr.numbered.inOrder
  obtain ⟨hwindows, hframe⟩ := step_windows h
  obtain ⟨hplan, hframe⟩ := Prod.mk.inj hframe
  obtain ⟨hlate, hdial⟩ := Prod.mk.inj hframe
  rw [Settled, hwindows, hplan, hlate, hdial]
  cases e with
  | arrival now record =>
    exact OpenWindows.closeHorizon_settled
      (OpenWindows.takeReady_inOrder (OpenWindows.assign_inOrder hl _ _)) _
  | poll now => exact OpenWindows.closeHorizon_settled hl _
  | trigger =>
    exact OpenWindows.settled_of_ids (OpenWindows.closeAll_inOrder hl)
      (OpenWindows.closeAll_ids hl) _
  | discard =>
    exact OpenWindows.settled_of_ids (OpenWindows.closeAll_inOrder hl)
      (OpenWindows.closeAll_ids hl) _

/-- What every history keeps. -/
theorem play_kept {events : List Event} (hsound : r.Sound) (hr : r.Settled)
    (h : r.play events = .ok (batches, s)) :
    s.Settled ∧ s.frame = (r.plan, r.lateness, events.foldl (Dial.after r.plan) r.dial) ∧
      s.windows.isTimeBased = r.windows.isTimeBased ∧ s.windows.grid? = r.windows.grid? := by
  induction events generalizing r batches with
  | nil =>
    obtain ⟨-, rfl⟩ := Prod.mk.inj (Except.ok.inj h)
    exact ⟨hr, rfl, rfl, rfl⟩
  | cons e rest ih =>
    obtain ⟨_, t, _, hstep, hrest, -⟩ := play_cons_iff.1 h
    obtain ⟨hwindows, hframe⟩ := step_windows hstep
    obtain ⟨hplan, hframe⟩ := Prod.mk.inj hframe
    obtain ⟨hlate, hdial⟩ := Prod.mk.inj hframe
    obtain ⟨hs, hf, ht, hg⟩ := ih (step_stepped hsound hstep).sound
      (step_settled hsound hstep) hrest
    refine ⟨hs, ?_, ht.trans ?_, hg.trans ?_⟩
    · rw [hf, hplan, hlate, hdial, List.foldl_cons]
    · rw [hwindows, windowsAfter_isTimeBased]
    · rw [hwindows, windowsAfter_grid?]

/-- The time that a record counts for. -/
def timeOf (r : WindowedRun) (now : Int64) (record : Record) : Int64 :=
  (r.dial.after r.plan (.arrival now record)).timeOf r.plan record

/-- The windows that a record comes into. -/
def windowsOf (r : WindowedRun) (now : Int64) (record : Record) : List Window :=
  (r.windows.assign (r.timeOf now record) (r.plan.groupKey record)).1.windows

/-- **A record fires the windows that it comes into**, if they are over once it was seen. -/
theorem process_fires_over (hr : r.Sound) (ht : r.windows.isTimeBased = true) {clock : Int64}
    {record : Record} (h : r.process clock record = .ok (batches, s)) {now : Int64}
    (hnow : s.dial.horizon s.plan s.lateness = some now) {v : Window}
    (hv : v ∈ r.windowsOf clock record) (hfits : r.windows.Fits v) (hover : v.bounds.stop ≤ now) :
    ∃ b ∈ batches, b.window = some v.bounds := by
  have hstep : r.step (.arrival clock record) = .ok (batches, s) := h
  obtain ⟨hwindows, -⟩ := step_windows hstep
  rcases OpenWindows.mem_closedBy hr.numbered.inOrder ht
    ((r.dial.after r.plan (.arrival clock record)).horizon r.plan r.lateness) hv
    with hclosed | hopen
  · have hmade : batches.map Batch.window =
        (r.closes (.arrival clock record)).map fun w => some w.bounds :=
      (step_stepped hr hstep).made
    have hbounds : some v.bounds ∈ batches.map Batch.window :=
      hmade ▸ List.mem_map_of_mem (f := fun w : Window => some w.bounds) hclosed
    exact List.mem_map.1 hbounds
  · -- a window that stays open is not over
    have hsettled := step_settled hr hstep
    rw [Settled, hnow] at hsettled
    have hs := (step_stepped hr hstep).sound
    have hahead := OpenWindows.lt_stop_of_settled hs.numbered.inOrder
      (by rw [hwindows, windowsAfter_isTimeBased, ht]) hsettled (v := v) (hwindows ▸ hopen)
      (fun g hg => hfits g (by rw [← hg, hwindows, windowsAfter_grid?]))
    exact absurd hahead (Int64.not_lt.2 hover)

/-- **No window is overdue.**  After any history of calls that succeeded, the query has seen the
    event times and the readings of the clock of these calls, each at its call (`Dial.after`);
    the horizon that they give is before the end of every open window, if this end is a word;
    and a record that comes into a window whose end the horizon has reached fires it in the same
    call. -/
theorem play_not_overdue {p : Plan} {spec : WindowSpec} (hs : spec.isTimeBased = true)
    {config : Config} {events : List Event} {past : List Batch}
    (h : (start p spec config).play events = .ok (past, r)) :
    r.dial = events.foldl (Dial.after p) {} ∧
    (∀ now, r.dial.horizon p config.lateness = some now →
      ∀ w ∈ r.windows.windows, (OpenWindows.ofSpec spec).Fits w → now < w.bounds.stop) ∧
    ∀ clock record batches s, r.process clock record = .ok (batches, s) →
      ∀ now, s.dial.horizon p config.lateness = some now →
        ∀ w ∈ r.windowsOf clock record, (OpenWindows.ofSpec spec).Fits w → w.bounds.stop ≤ now →
          ∃ b ∈ batches, b.window = some w.bounds := by
  have hsound := (play_stepped events (ofSpec_sound p spec config) h).1
  obtain ⟨hsettled, hframe, ht, hg⟩ := play_kept (ofSpec_sound p spec config)
    (start_settled p spec config) h
  obtain ⟨hplan, hframe⟩ := Prod.mk.inj hframe
  obtain ⟨hlate, hdial⟩ := Prod.mk.inj hframe
  have htime : r.windows.isTimeBased = true := by
    rw [ht]
    cases spec <;> first | rfl | cases hs
  have hfits : ∀ w, (OpenWindows.ofSpec spec).Fits w → r.windows.Fits w := fun w hw g hgrid =>
    hw g (hg.symm.trans hgrid)
  refine ⟨hdial, ?_, ?_⟩
  · intro now hnow w hw hfit
    rw [Settled, hplan, hlate] at hsettled
    exact OpenWindows.lt_stop_of_settled hsound.numbered.inOrder htime (hnow ▸ hsettled) hw
      (hfits w hfit)
  · intro clock record batches s hp now hnow w hw hfit hover
    obtain ⟨hplan', hframe⟩ := Prod.mk.inj (process_windows hp).2
    obtain ⟨hlate', -⟩ := Prod.mk.inj hframe
    rw [show p = s.plan from (hplan'.trans hplan).symm,
      show config.lateness = s.lateness from (hlate'.trans hlate).symm] at hnow
    exact process_fires_over hsound htime hp hnow hw (hfits w hfit) hover

/-- After records at 3 and 7 the window from 5 to 10 is open; a record at 4 comes into the window
    from 0 to 5, which had fired, and fires again. -/
theorem play_not_overdue_late :
    ∃ past r, (start .collectIds (.tumbling ⟨5000000⟩) {}).play
        [.arrival 0 (.numbered 1 3), .arrival 0 (.numbered 2 7)] = .ok (past, r) ∧
      r.windows.windows = [⟨1, ⟨5, 10⟩⟩] ∧ r.dial.horizon .collectIds 0 = some 7 ∧
      (7 : Int64) < 10 ∧
      ∃ batches s, r.process 0 (.numbered 3 4) = .ok (batches, s) ∧
        ∃ b ∈ batches, b.window = some ⟨0, 5⟩ := by
  have hrun : ((start .collectIds (.tumbling ⟨5000000⟩) {}).play
      [.arrival 0 (.numbered 1 3), .arrival 0 (.numbered 2 7)]).toOption.map (fun y =>
        (y.2.windows.windows, y.2.dial.horizon .collectIds 0, y.2.windowsOf 0 (.numbered 3 4),
          (y.2.process 0 (.numbered 3 4)).toOption.map fun z => z.2.dial.horizon .collectIds 0)) =
      some ([⟨1, ⟨5, 10⟩⟩], some 7, [⟨2, ⟨0, 5⟩⟩], some (some 7)) := by
    decide +kernel
  have hfits : ∀ id start, start.toInt ≤ 5 →
      (OpenWindows.ofSpec (.tumbling ⟨5000000⟩)).Fits ⟨id, ⟨start, start + 5⟩⟩ :=
    fun id start hle g hg => by
      obtain rfl := Option.some.inj hg
      exact Int.le_trans (Int.add_le_add_right hle 5) (by decide)
  cases hplay : (start .collectIds (.tumbling ⟨5000000⟩) {}).play
      [.arrival 0 (.numbered 1 3), .arrival 0 (.numbered 2 7)] with
  | error => rw [hplay] at hrun; cases hrun
  | ok y =>
    rw [hplay] at hrun
    obtain ⟨hwindows, hrest⟩ := Prod.mk.inj (Option.some.inj hrun)
    obtain ⟨hnow, hrest⟩ := Prod.mk.inj hrest
    obtain ⟨hof, hprocess⟩ := Prod.mk.inj hrest
    have hs : (WindowSpec.tumbling ⟨5000000⟩).isTimeBased = true := rfl
    obtain ⟨-, hahead, hlate⟩ := play_not_overdue hs hplay
    refine ⟨y.1, y.2, rfl, hwindows, hnow,
      hahead 7 hnow ⟨1, ⟨5, 10⟩⟩ (hwindows ▸ List.mem_cons_self) (hfits 1 5 (by decide)), ?_⟩
    cases hp : y.2.process 0 (.numbered 3 4) with
    | error => rw [hp] at hprocess; cases hprocess
    | ok z =>
      rw [hp] at hprocess
      exact ⟨z.1, z.2, rfl, hlate 0 (.numbered 3 4) z.1 z.2 hp 7 (Option.some.inj hprocess)
        ⟨2, ⟨0, 5⟩⟩ (hof ▸ List.mem_cons_self) (hfits 2 0 (by decide)) (by decide)⟩

end WindowedRun

end StreamSql
