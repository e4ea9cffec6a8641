/-
  A query with windows that keeps the arrivals of every window in the place of its groups.

  A `Ledger` goes through a history as the query does, but it cannot fail, and a window that
  fires hands over its arrivals (`Firing`).  `play_follows`: a run makes the batches of these
  arrivals, so what is said about the arrivals of the ledger holds of the groups of the run.
-/
import StreamSql.Proofs.Arena
import StreamSql.Proofs.History
import StreamSql.Proofs.Numbers

namespace StreamSql

/-- A plan with what a run of it is given. -/
structure Job where
  plan : Plan
  substitute : Substitute
  lateness : Int64
  /-- the accumulators of a new group -/
  fresh : List Accumulator
  fresh_eq : plan.newAccumulators = .ok fresh

/-- A window that fired, with its arrivals. -/
structure Firing where
  window : Window
  arrivals : List Arrival

/-- The batches of windows that fired. -/
def Job.batches (j : Job) (firings : List Firing) : List Batch :=
  firings.map fun f =>
    j.plan.batchOf j.substitute j.fresh f.window.bounds (f.arrivals.map Arrival.record)

/-- The open windows with their arrivals. -/
structure Ledger where
  windows : OpenWindows
  /-- the arrivals of every window, by its number -/
  content : Nat → List Arrival := fun _ => []
  dial : Dial := {}
  fired : Nat := 0
  late : Nat := 0

namespace Ledger

/-! ## Firing -/

/-- A closed window fires, unless it has no arrivals. -/
def fireOne (l : Ledger) (w : Window) : List Firing × Ledger :=
  match l.content w.id with
  | [] => ([], l)
  | arrivals =>
    ([⟨w, arrivals⟩],
      { l with
        content := fun id => if id = w.id then [] else l.content id
        fired := l.fired + 1 })

/-- Closed windows fire one after the other. -/
def fire (l : Ledger) : List Window → List Firing × Ledger
  | [] => ([], l)
  | w :: rest =>
    ((l.fireOne w).1 ++ ((l.fireOne w).2.fire rest).1, ((l.fireOne w).2.fire rest).2)

@[simp]
theorem fireOne_windows (l : Ledger) (w : Window) : (l.fireOne w).2.windows = l.windows := by
  unfold fireOne
  split <;> rfl

@[simp]
theorem fireOne_dial (l : Ledger) (w : Window) : (l.fireOne w).2.dial = l.dial := by
  unfold fireOne
  split <;> rfl

@[simp]
theorem fireOne_late (l : Ledger) (w : Window) : (l.fireOne w).2.late = l.late := by
  unfold fireOne
  split <;> rfl

@[simp]
theorem fire_windows (windows : List Window) (l : Ledger) :
    (l.fire windows).2.windows = l.windows := by
  induction windows generalizing l with
  | nil => rfl
  | cons w rest ih => exact (ih _).trans (l.fireOne_windows w)

@[simp]
theorem fire_dial (windows : List Window) (l : Ledger) : (l.fire windows).2.dial = l.dial := by
  induction windows generalizing l with
  | nil => rfl
  | cons w rest ih => exact (ih _).trans (l.fireOne_dial w)

@[simp]
theorem fire_late (windows : List Window) (l : Ledger) : (l.fire windows).2.late = l.late := by
  induction windows generalizing l with
  | nil => rfl
  | cons w rest ih => exact (ih _).trans (l.fireOne_late w)

/-- Some windows closed and fire, and the others stay open. -/
def settle (l : Ledger) (c : List Window × OpenWindows) : List Firing × Ledger :=
  { l with windows := c.2 }.fire c.1

@[simp]
theorem settle_windows (l : Ledger) (c : List Window × OpenWindows) :
    (l.settle c).2.windows = c.2 := fire_windows ..

@[simp]
theorem settle_dial (l : Ledger) (c : List Window × OpenWindows) :
    (l.settle c).2.dial = l.dial := fire_dial ..

@[simp]
theorem settle_late (l : Ledger) (c : List Window × OpenWindows) :
    (l.settle c).2.late = l.late := fire_late ..

/-- The windows fire whose end the horizon has reached. -/
def fireDue (j : Job) (l : Ledger) : List Firing × Ledger :=
  l.settle (l.windows.closeHorizon (l.dial.horizon j.plan j.lateness))

/-! ## Arrivals -/

/-- The watermark has passed one of the windows. -/
def isLate (j : Job) (l : Ledger) (windows : List Window) : Bool :=
  match l.dial.watermark j.lateness with
  | some mark => l.windows.isTimeBased && windows.any fun w => w.bounds.stop ≤ mark
  | none => false

/-- An arrival for windows that the watermark has passed is counted. -/
def noteLate (j : Job) (l : Ledger) (windows : List Window) : Ledger :=
  if l.isLate j windows then { l with late := l.late + 1 } else l

@[simp]
theorem noteLate_windows (j : Job) (l : Ledger) (windows : List Window) :
    (l.noteLate j windows).windows = l.windows := by
  unfold noteLate
  split <;> rfl

@[simp]
theorem noteLate_dial (j : Job) (l : Ledger) (windows : List Window) :
    (l.noteLate j windows).dial = l.dial := by
  unfold noteLate
  split <;> rfl

@[simp]
theorem noteLate_content (j : Job) (l : Ledger) (windows : List Window) :
    (l.noteLate j windows).content = l.content := by
  unfold noteLate
  split <;> rfl

/-- An arrival comes into its windows. -/
def enter (l : Ledger) (a : Arrival) (windows : List Window) : Ledger :=
  { l with content := fun id =>
      l.content id ++ List.replicate ((windows.map Window.id).count id) a }

@[simp]
theorem enter_windows (l : Ledger) (a : Arrival) (windows : List Window) :
    (l.enter a windows).windows = l.windows := rfl

@[simp]
theorem enter_dial (l : Ledger) (a : Arrival) (windows : List Window) :
    (l.enter a windows).dial = l.dial := rfl

/-- The arrival of a record. -/
def arrivalOf (j : Job) (l : Ledger) (now : Int64) (record : Record) : Arrival :=
  ⟨(l.dial.after j.plan (.arrival now record)).timeOf j.plan record, record⟩

/-- The ledger when the time of a record was read. -/
def dated (j : Job) (l : Ledger) (now : Int64) (record : Record) : Ledger :=
  { l with dial := l.dial.after j.plan (.arrival now record) }

/-- The windows that are full fire. -/
def fireReady (l : Ledger) : List Firing × Ledger :=
  l.settle l.windows.takeReady

@[simp]
theorem fireReady_dial (l : Ledger) : l.fireReady.2.dial = l.dial := settle_dial ..

/-- Windows at fixed places never are full. -/
theorem fireReady_aligned {l : Ledger} {w : AlignedWindows} (h : l.windows = .aligned w) :
    l.fireReady = ([], l) := by
  cases l
  cases h
  rfl

/-- An arrival, given what it does to the windows: those that it ends fire, it comes into its
    windows, and then those fire that are full and those that are due. -/
def accept (j : Job) (l : Ledger) (a : Arrival) (c : Assignment × OpenWindows) :
    List Firing × Ledger :=
  let (ended, l) := l.settle (c.1.closed, c.2)
  let (full, l) := ((l.noteLate j c.1.windows).enter a c.1.windows).fireReady
  let (due, l) := l.fireDue j
  (ended ++ full ++ due, l)

/-- A record arrives while the clock shows `now`. -/
def arrive (j : Job) (l : Ledger) (now : Int64) (record : Record) : List Firing × Ledger :=
  let a := l.arrivalOf j now record
  (l.dated j now record).accept j a (l.windows.assign a.time (j.plan.groupKey record))

/-! ## Histories -/

/-- One event; the windows that fire. -/
def step (j : Job) (l : Ledger) : Event → List Firing × Ledger
  | .arrival now record => l.arrive j now record
  | .poll now => { l with dial := l.dial.after j.plan (.poll now) }.fireDue j
  | .trigger => l.settle l.windows.closeAll
  | .discard => ([], { l with windows := l.windows.closeAll.2, content := fun _ => [] })

/-- One event after the other. -/
def play (j : Job) (l : Ledger) : List Event → List Firing × Ledger
  | [] => ([], l)
  | e :: rest => ((l.step j e).1 ++ ((l.step j e).2.play j rest).1, ((l.step j e).2.play j rest).2)

section

variable (j : Job) (l : Ledger)

theorem play_append (events later : List Event) :
    l.play j (events ++ later) = ((l.play j events).1 ++ ((l.play j events).2.play j later).1,
      ((l.play j events).2.play j later).2) := by
  induction events generalizing l with
  | nil => rfl
  | cons e rest ih => rw [List.cons_append, play, ih, play, List.append_assoc]

theorem fireDue_dial : (l.fireDue j).2.dial = l.dial := settle_dial ..

theorem fireDue_late : (l.fireDue j).2.late = l.late := settle_late ..

theorem fireDue_grid? : (l.fireDue j).2.windows.grid? = l.windows.grid? :=
  (congrArg _ (settle_windows ..)).trans (OpenWindows.closeHorizon_grid ..)

theorem accept_dial (a : Arrival) (c : Assignment × OpenWindows) :
    (l.accept j a c).2.dial = l.dial := by
  unfold accept
  simp only [fireDue_dial, fireReady_dial, enter_dial, noteLate_dial, settle_dial]

theorem accept_aligned (a : Arrival) (windows : List Window) (w : AlignedWindows) :
    l.accept j a (⟨windows, []⟩, .aligned w) =
      (({ l with windows := .aligned w }.noteLate j windows).enter a windows).fireDue j := by
  have h : (({ l with windows := .aligned w }.noteLate j windows).enter a windows).windows =
      .aligned w := noteLate_windows ..
  simp only [accept, settle, fire, fireReady_aligned h]
  rfl

theorem accept_grid? (a : Arrival) (c : Assignment × OpenWindows) :
    (l.accept j a c).2.windows.grid? = c.2.grid? := by
  unfold accept
  simp only [fireDue_grid?, fireReady, settle_windows, enter_windows, noteLate_windows]
  exact OpenWindows.takeReady_grid _

theorem accept_late (a : Arrival) (c : Assignment × OpenWindows) :
    (l.accept j a c).2.late = ((l.settle (c.1.closed, c.2)).2.noteLate j c.1.windows).late := by
  unfold accept
  simp only [fireDue_late, fireReady, settle_late]
  rfl

theorem late_le_noteLate (windows : List Window) : l.late ≤ (l.noteLate j windows).late := by
  unfold noteLate
  split
  · exact Nat.le_succ _
  · exact Nat.le_refl _

theorem late_le_step (e : Event) : l.late ≤ (l.step j e).2.late := by
  cases e with
  | arrival now record =>
    show (l.dated j now record).late ≤ ((l.dated j now record).accept j _ _).2.late
    rw [accept_late, ← settle_late (l.dated j now record)]
    exact late_le_noteLate ..
  | poll now =>
    exact Nat.le_of_eq (fireDue_late j { l with dial := l.dial.after j.plan (.poll now) }).symm
  | trigger => exact Nat.le_of_eq (settle_late ..).symm
  | discard => exact Nat.le_refl _

theorem late_le_play (events : List Event) : l.late ≤ (l.play j events).2.late := by
  induction events generalizing l with
  | nil => exact Nat.le_refl _
  | cons e rest ih => exact Nat.le_trans (late_le_step ..) (ih _)

theorem step_dial (e : Event) : (l.step j e).2.dial = l.dial.after j.plan e := by
  cases e with
  | arrival now record => exact accept_dial ..
  | poll now => exact fireDue_dial ..
  | trigger => exact settle_dial ..
  | discard => rfl

/-- The windows stay at the same places. -/
theorem step_grid? (e : Event) : (l.step j e).2.windows.grid? = l.windows.grid? := by
  cases e with
  | arrival now record => exact (accept_grid? ..).trans (OpenWindows.assign_grid ..)
  | poll now => exact fireDue_grid? ..
  | trigger => exact (congrArg _ (settle_windows ..)).trans (OpenWindows.closeAll_grid _)
  | discard => exact OpenWindows.closeAll_grid _

end

end Ledger

/-! ## The run of a ledger -/

/-- The run is at the point at which the ledger is. -/
structure WindowedRun.Follows (r : WindowedRun) (j : Job) (l : Ledger) : Prop where
  plan : r.plan = j.plan
  substitute : r.substitute = j.substitute
  lateness : r.lateness = j.lateness
  windows : r.windows = l.windows
  arena : r.arena.Contains j.plan j.fresh fun id => (l.content id).map Arrival.record
  dial : r.dial = l.dial
  fired : r.fired = l.fired
  late : r.late = l.late

namespace WindowedRun

variable {r : WindowedRun} {j : Job} {l : Ledger}

/-- The batch of a window whose groups are those of its arrivals. -/
theorem fireOne_follows (h : r.Follows j l) (w : Window) :
    ∃ r', r.fireOne w = (j.batches (l.fireOne w).1, r') ∧ r'.Follows j (l.fireOne w).2 := by
  have hg : r.arena.groups w.id = j.plan.groupsOf j.fresh ((l.content w.id).map Arrival.record) :=
    h.arena w.id
  unfold fireOne Ledger.fireOne
  cases hc : l.content w.id with
  | nil =>
    rw [hc, List.map_nil, Plan.groupsOf_nil] at hg
    rw [hg]
    exact ⟨r, rfl, h⟩
  | cons a rest =>
    rw [hc] at hg
    have hne : r.arena.groups w.id ≠ [] := fun he => by
      rw [hg, Plan.groupsOf_eq_nil] at he
      exact List.cons_ne_nil _ _ he
    split
    · next he => exact absurd he hne
    · refine ⟨{ r with arena := r.arena.erase w.id, fired := r.fired + 1 }, ?_,
        { h with arena := ?_, fired := congrArg (· + 1) h.fired }⟩
      · rw [batch, hg, h.plan, h.substitute]
        rfl
      · intro id
        refine (Arena.contains_erase h.arena w.id id).trans ?_
        by_cases hid : id = w.id <;> simp [hid]

theorem fire_follows (windows : List Window) (h : r.Follows j l) :
    ∃ r', r.fire windows = (j.batches (l.fire windows).1, r') ∧
      r'.Follows j (l.fire windows).2 := by
  induction windows generalizing r l with
  | nil => exact ⟨r, rfl, h⟩
  | cons w rest ih =>
    obtain ⟨s, hw, hs⟩ := fireOne_follows h w
    obtain ⟨t, hrest, ht⟩ := ih hs
    refine ⟨t, ?_, ht⟩
    simp only [fire, hw, hrest, Ledger.fire, Job.batches, List.map_append]

theorem settle_follows (h : r.Follows j l) (c : List Window × OpenWindows) :
    ∃ r', r.settle c = (j.batches (l.settle c).1, r') ∧ r'.Follows j (l.settle c).2 :=
  fire_follows (l := { l with windows := c.2 }) c.1 { h with windows := rfl }

theorem fireReady_follows (h : r.Follows j l) :
    ∃ r', r.fireReady = (j.batches l.fireReady.1, r') ∧ r'.Follows j l.fireReady.2 := by
  rw [Ledger.fireReady, ← h.windows]
  exact settle_follows h r.windows.takeReady

theorem fireDue_follows (h : r.Follows j l) (now : Int64) :
    ∃ r', r.fireDue now = (j.batches (l.settle (l.windows.closeDue now)).1, r') ∧
      r'.Follows j (l.settle (l.windows.closeDue now)).2 := by
  rw [← h.windows]
  exact settle_follows h (r.windows.closeDue now)

theorem fireOverdue_follows (h : r.Follows j l) {time : Int64}
    (ht : j.plan.timestamp = none → time = l.dial.latestClock) :
    ∃ r', r.fireOverdue time = (j.batches (l.fireDue j).1, r') ∧ r'.Follows j (l.fireDue j).2 := by
  have hh : r.horizon time = l.dial.horizon j.plan j.lateness := by
    rw [horizon, watermark_eq, h.lateness, h.dial, hasEventTime, h.plan, Dial.horizon]
    cases hp : j.plan.timestamp with
    | none => simp [ht hp]
    | some event => rfl
  rw [fireOverdue, hh, Ledger.fireDue]
  cases l.dial.horizon j.plan j.lateness with
  | none => exact ⟨r, rfl, h⟩
  | some now => exact fireDue_follows h now

theorem noteLate_follows (h : r.Follows j l) (windows : List Window) :
    (r.noteLate windows).Follows j (l.noteLate j windows) := by
  have hl : r.isLate windows = l.isLate j windows := by
    rw [isLate, watermark_eq, h.dial, h.lateness, h.windows]
    rfl
  rw [noteLate, hl, Ledger.noteLate]
  split
  · exact { h with late := congrArg (· + 1) h.late }
  · exact h

theorem enter_follows (h : r.Follows j l) (a : Arrival) (windows : List Window) :
    ∃ r', windows.foldlM (fun s w => s.fold a.record (j.plan.groupKey a.record)
        (j.plan.contributions a.record) w) r = .ok r' ∧ r'.Follows j (l.enter a windows) := by
  obtain ⟨arena, hfold, ha⟩ := foldlM_fold (h.plan ▸ j.fresh_eq) (h.plan ▸ h.arena) a.record windows
  refine ⟨{ r with arena }, by rw [← h.plan]; exact hfold,
    { h with arena := fun id => (ha id).trans ?_ }⟩
  simp [Ledger.enter, h.plan]

theorem recordTime_follows (h : r.Follows j l) (now : Int64) (record : Record) :
    ∃ r', r.recordTime now record = ((l.arrivalOf j now record).time, r') ∧
      r'.Follows j (l.dated j now record) := by
  obtain ⟨fallbacks, htime⟩ := r.recordTime_eq now record
  have hd : r.dial.after r.plan (.arrival now record) = (l.dated j now record).dial := by
    rw [h.dial, h.plan]
    rfl
  have ht : (l.dated j now record).dial.timeOf r.plan record = (l.arrivalOf j now record).time := by
    rw [h.plan]
    rfl
  rw [hd, ht] at htime
  exact ⟨_, htime, { h with dial := rfl }⟩

theorem process_follows (h : r.Follows j l) (now : Int64) (record : Record) :
    ∃ r', r.process now record = .ok (j.batches (l.arrive j now record).1, r') ∧
      r'.Follows j (l.arrive j now record).2 := by
  obtain ⟨r₁, htime, h₁⟩ := recordTime_follows h now record
  unfold process Ledger.arrive
  simp only [htime, h.plan]
  rw [show r₁.windows = l.windows from h₁.windows]
  obtain ⟨⟨entered, closed⟩, windows⟩ :=
    l.windows.assign (l.arrivalOf j now record).time (j.plan.groupKey record)
  obtain ⟨r₂, hended, h₂⟩ := settle_follows h₁ (closed, windows)
  obtain ⟨r₃, henter, h₃⟩ := enter_follows (noteLate_follows h₂ entered)
    (l.arrivalOf j now record) entered
  obtain ⟨r₄, hfull, h₄⟩ := fireReady_follows h₃
  have ht : j.plan.timestamp = none → (l.arrivalOf j now record).time =
      (l.dated j now record).dial.latestClock := by
    intro hp
    rw [Ledger.arrivalOf, Dial.timeOf, Plan.eventTime?, hp]
    rfl
  obtain ⟨r₅, hdue, h₅⟩ := fireOverdue_follows h₄ fun hp => (ht hp).trans (by simp)
  refine ⟨r₅, ?_, h₅⟩
  simp only [hended]
  refine bind_eq_ok.2 ⟨r₃, henter, ?_⟩
  simp only [hfull, hdue, Job.batches, Ledger.accept, List.map_append]
  rfl

/-! ## Histories -/

theorem poll_follows (h : r.Follows j l) (now : Int64) :
    ∃ r', r.poll now = (j.batches (l.step j (.poll now)).1, r') ∧
      r'.Follows j (l.step j (.poll now)).2 := by
  unfold poll Ledger.step Ledger.fireDue Dial.horizon Dial.after
  rw [watermark_eq, h.lateness, h.dial, hasEventTime, h.plan]
  cases j.plan.timestamp with
  | some event =>
    simp only [Option.isSome_some, if_true]
    cases l.dial.watermark j.lateness with
    | none => exact ⟨r, rfl, h⟩
    | some mark => exact fireDue_follows h mark
  | none =>
    have ht : (r.readClock now).1 = (l.dial.read now).latestClock := by rw [← h.dial]; rfl
    have hr : (r.readClock now).2.Follows j { l with dial := l.dial.read now } :=
      { h with dial := by rw [← h.dial]; rfl }
    simp only [Option.isSome_none, Bool.false_eq_true, if_false, ht]
    exact fireDue_follows hr _

/-- **One event** does to the run what it does to the ledger. -/
theorem step_follows (h : r.Follows j l) (e : Event) :
    ∃ r', r.step e = .ok (j.batches (l.step j e).1, r') ∧ r'.Follows j (l.step j e).2 := by
  cases e with
  | arrival now record => exact process_follows h now record
  | poll now =>
    obtain ⟨r', hpoll, h'⟩ := poll_follows h now
    exact ⟨r', congrArg Except.ok hpoll, h'⟩
  | trigger =>
    obtain ⟨r', hclose, h'⟩ := settle_follows h l.windows.closeAll
    exact ⟨r', by rw [step, trigger, h.windows, hclose]; rfl, h'⟩
  | discard =>
    refine ⟨r.discard.2, rfl, { h with windows := ?_, arena := fun id => ?_ }⟩
    · rw [discard, h.windows]; rfl
    · exact (Plan.groupsOf_nil ..).symm

/-- **A history** never fails, and makes the batches of the windows that fire in the ledger. -/
theorem play_follows (events : List Event) (h : r.Follows j l) :
    ∃ r', r.play events = .ok (j.batches (l.play j events).1, r') ∧
      r'.Follows j (l.play j events).2 := by
  induction events generalizing r l with
  | nil => exact ⟨r, rfl, h⟩
  | cons e rest ih =>
    obtain ⟨s, hstep, hs⟩ := step_follows h e
    obtain ⟨t, hrest, ht⟩ := ih hs
    refine ⟨t, (play_cons_ok hstep hrest).trans ?_, ht⟩
    rw [Ledger.play, Job.batches, Job.batches, Job.batches, List.map_append]

/-- The run begins where the ledger has no windows yet. -/
theorem start_follows (spec : WindowSpec) (config : Config) (j : Job)
    (hs : config.substitute = j.substitute) (hl : config.lateness = j.lateness) :
    (start j.plan spec config).Follows j { windows := .ofSpec spec } where
  plan := rfl
  substitute := hs
  lateness := hl
  windows := rfl
  arena := fun _ => (Plan.groupsOf_nil ..).symm
  dial := rfl
  fired := rfl
  late := rfl

end WindowedRun

end StreamSql
