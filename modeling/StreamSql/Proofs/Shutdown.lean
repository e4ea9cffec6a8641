/-
  The end of a query, task by task, and what the sinks were given by then.

  While an engine stops, its tasks go on working: the dispatcher delivers from the front of the
  queue, a batch that waits for room is put there once there is some, and the timer may still ring.
  When nothing waits for room any more the tasks are told to end: the timer ends, and the dispatcher
  ends after it has delivered what is left.  Whatever the order in which they work, the engine ends
  as if it had stopped at once.

  * `Command.isTask`: the command lets the tasks of a stopping engine work;
  * `Nears e ds e'`: `e` ends as `e'` does, once `ds` is delivered;
  * `nears_step`, `nears_after`: the tasks bring a stopping engine nearer to its end;
  * `stop_by_tasks`: once they have brought it there, everything is as after `Engine.stop`;
  * `exists_tasks_of_stopping`: they can bring it there;
  * `delivered_in_order`: what the sinks of an engine are given from its beginning, and that
    stopping it at once or task by task is the same.
-/
import StreamSql.Proofs.Delivery
import StreamSql.Proofs.Traffic

namespace StreamSql

/-- The command lets the tasks of a stopping engine work. -/
def Command.isTask : Command → Bool
  | .dispatch | .drain | .pass _ | .ring | .tick _ | .flush | .signal | .endTimer | .endStop => true
  | _ => false

/-- No window is counted as open where none has a number. -/
theorem OpenWindows.count_of_ids_nil {w : OpenWindows} (h : w.ids = []) : w.count = 0 := by
  refine List.length_eq_zero_iff.2 (List.eq_nil_iff_forall_not_mem.2 fun v hv => ?_)
  have hid := id_mem_ids hv
  rw [h] at hid
  cases hid

theorem WindowedRun.stats_settle_nil (r : WindowedRun) {w : OpenWindows}
    (h : w.count = r.windows.count) : (r.settle ([], w)).2.stats = r.stats := by
  show WindowStats.mk w.count _ _ _ _ = _
  rw [h]
  rfl

/-- Time changes no number where no window is open. -/
theorem Run.stats?_poll_silent {r : Run} (ho : r.InOrder) (h : r.Silent) (now : Int64) :
    (r.poll now).2.stats? = r.stats? := by
  cases r with
  | rows r => rfl
  | windowed r =>
    obtain ⟨latestClock, hpoll⟩ := r.poll_eq now
    obtain ⟨hclosed, hids⟩ := (OpenWindows.closeHorizon_closing ho
      ((r.dial.after r.plan (.poll now)).horizon r.plan r.lateness)).of_ids_nil h
    have hcount := (OpenWindows.count_of_ids_nil hids).trans (OpenWindows.count_of_ids_nil h).symm
    show some (r.poll now).2.stats = some r.stats
    rw [hpoll, Prod.ext (y := ([], _)) hclosed rfl]
    exact congrArg some (WindowedRun.stats_settle_nil { r with latestClock } hcount)

namespace Phase

/-- The numbers about the windows that a query keeps when it is over. -/
def lastStats : Phase → Option WindowStats
  | stopping p _ => p.run.stats?
  | closing _ stats _ | stopped stats => stats
  | idle | running _ => none

variable {phase : Phase} {p q : Pipeline}

theorem lastStats_withPipeline (hp : phase.pipeline? = some p)
    (h : q.run.stats? = p.run.stats?) : (phase.withPipeline q).lastStats = phase.lastStats := by
  cases phase with
  | idle | stopped => cases hp
  | stopping p' unsent =>
    cases hp
    exact h
  | running | closing => rfl

theorem lastStats_starve : phase.starve.lastStats = phase.lastStats := by
  unfold starve
  split <;> rfl

theorem waiting_starve : phase.starve.waiting = phase.waiting := by
  rw [waiting, pipeline?_starve, waiting]

end Phase

namespace Engine

/-- The engine in another phase, with other numbers of queued batches and of the timer. -/
def brought (e : Engine) (phase : Phase) (queued timerClock : Nat) : Engine :=
  { e with counters.queued := queued, phase, timerClock }

/-- Neither the phase nor those numbers change what is delivered. -/
theorem deliver_brought (e : Engine) (phase : Phase) (queued timerClock : Nat)
    (batches : List Batch) : (e.brought phase queued timerClock).deliver batches =
      ((e.deliver batches).1, (e.deliver batches).2.brought phase queued timerClock) := by
  induction batches generalizing e with
  | nil => rfl
  | cons b rest ih =>
    have hrest := ih { e with
      counters.delivered := e.counters.delivered + 1
      counters.sinkPanics :=
        e.counters.sinkPanics + Sink.panickers e.sinks e.counters.delivered b }
    exact congrArg (fun r => (Delivery.toAll e.sinks b ++ r.1, r.2)) hrest

theorem deliver_append (e : Engine) (batches rest : List Batch) :
    e.deliver (batches ++ rest) =
      ((e.deliver batches).1 ++ ((e.deliver batches).2.deliver rest).1,
        ((e.deliver batches).2.deliver rest).2) := by
  induction batches generalizing e with
  | nil => rfl
  | cons b batches ih =>
    rw [List.cons_append, deliver, ih, deliver]
    simp only [List.append_assoc]

/-- What a stopping engine delivers until its end, and the engine then, whatever the timer shows. -/
def ending (e : Engine) : List Delivery × Engine :=
  (e.settle.1, { e.settle.2 with timerClock := 0 })

/-- `e` ends as `e'` does, once `ds` is delivered. -/
def Nears (e : Engine) (ds : List Delivery) (e' : Engine) : Prop :=
  e.ending = (ds ++ e'.ending.1, e'.ending.2)

namespace Nears

variable {e e' e'' : Engine} {ds ds' : List Delivery}

theorem refl (e : Engine) : Nears e [] e := rfl

theorem trans (h : Nears e ds e') (h' : Nears e' ds' e'') : Nears e (ds ++ ds') e'' := by
  rw [Nears, h, List.append_assoc, h']

end Nears

theorem settle_of_stopped {e : Engine} {stats : Option WindowStats} (h : e.phase = .stopped stats) :
    e.settle = ([], e) := by
  rw [settle, h]

/-- At the end everything that waits is delivered, what is queued first. -/
theorem settle_eq {e : Engine} (hover : e.phase.isOver = true) :
    e.settle = (e.brought (.stopped e.phase.lastStats)
      (e.counters.queued + e.phase.unsent.length) e.timerClock).deliver
        (e.phase.waiting ++ e.phase.unsent) := by
  unfold settle
  cases hphase : e.phase with
  | idle | running => rw [hphase] at hover; cases hover
  | stopping p unsent => rfl
  | closing p stats dispatcher =>
    rw [show Phase.unsent (.closing p stats dispatcher) = [] from rfl, List.append_nil]
    rfl
  | stopped stats =>
    show ([], e) = ([], e.brought (.stopped stats) e.counters.queued e.timerClock)
    rw [← hphase]
    rfl

theorem ending_eq {e : Engine} (hover : e.phase.isOver = true) :
    e.ending = (e.brought (.stopped e.phase.lastStats)
      (e.counters.queued + e.phase.unsent.length) 0).deliver
        (e.phase.waiting ++ e.phase.unsent) := by
  rw [ending, settle_eq hover, deliver_brought, deliver_brought]
  rfl

/-! ## The tasks -/

section

variable {e : Engine} {p : Pipeline} {batches rest : List Batch} (hover : e.phase.isOver = true)

include hover

/-- **Batches at the front of what waits** are delivered now or at the end, which is the same. -/
theorem nears_deliver {phase : Phase} (queued timerClock : Nat) (batches : List Batch)
    (hphase : phase.isOver = true) (hstats : phase.lastStats = e.phase.lastStats)
    (hwaiting : e.phase.waiting ++ e.phase.unsent = batches ++ (phase.waiting ++ phase.unsent))
    (hqueued : queued + phase.unsent.length = e.counters.queued + e.phase.unsent.length) :
    Nears e ((e.brought phase queued timerClock).deliver batches).1
      ((e.brought phase queued timerClock).deliver batches).2 := by
  have hafter : ((e.brought phase queued timerClock).deliver batches).2 =
      (e.deliver batches).2.brought phase queued timerClock := by
    rw [deliver_brought]
  have hending : ((e.deliver batches).2.brought phase queued timerClock).ending =
      ((e.deliver batches).2.brought (.stopped e.phase.lastStats)
        (e.counters.queued + e.phase.unsent.length) 0).deliver (phase.waiting ++ phase.unsent) := by
    rw [ending_eq hphase, ← hstats, ← hqueued]
    rfl
  rw [Nears, hafter, hending, ending_eq hover, hwaiting, deliver_append]
  simp only [deliver_brought]

/-- The end is the same where what waits stays as it is. -/
theorem nears_rephase {phase : Phase} (hphase : phase.isOver = true)
    (hstats : phase.lastStats = e.phase.lastStats) (hwaiting : phase.waiting = e.phase.waiting)
    (hunsent : phase.unsent = e.phase.unsent) : Nears e [] { e with phase } :=
  nears_deliver hover e.counters.queued e.timerClock [] hphase hstats
    (by rw [hwaiting, hunsent]; rfl) (by rw [hunsent])

/-- The end does not depend on the time of the timer. -/
theorem nears_pass (millis : Nat) : Nears e [] (e.pass millis) :=
  nears_deliver hover e.counters.queued (e.timerClock + millis) [] hover rfl rfl rfl

/-- The dispatcher delivers from the front of the queue. -/
theorem nears_unload (hp : e.phase.pipeline? = some p) (hqueue : p.queue = batches ++ rest) :
    Nears e ({ e with phase := e.phase.withPipeline { p with queue := rest } }.deliver batches).1
      ({ e with phase := e.phase.withPipeline { p with queue := rest } }.deliver batches).2 := by
  refine nears_deliver hover e.counters.queued e.timerClock batches
    (Phase.isOver_withPipeline.trans hover) (Phase.lastStats_withPipeline hp rfl) ?_ ?_
  · rw [Phase.waiting_eq hp, Phase.waiting_eq (Phase.pipeline?_withPipeline hp),
      Phase.unsent_withPipeline, hqueue, List.append_assoc]
  · rw [Phase.unsent_withPipeline]

theorem nears_dispatch : Nears e e.dispatch.1 e.dispatch.2 := by
  unfold dispatch
  split
  · next p hserved =>
    have hp := Phase.pipeline?_of_served? hserved
    split
    · exact nears_rephase hover (Phase.isOver_starve.trans hover) Phase.lastStats_starve
        Phase.waiting_starve Phase.unsent_starve
    · next b rest hqueue => exact nears_unload hover hp hqueue
  · exact .refl e

theorem nears_drain : Nears e e.drain.1 e.drain.2 := by
  unfold drain
  split
  · next p hserved =>
    exact nears_unload hover (Phase.pipeline?_of_served? hserved) (List.append_nil _).symm
  · exact .refl e

/-- The timer fires nothing any more. -/
theorem nears_ring (hsound : e.phase.Sound) : Nears e [] e.ring := by
  unfold ring
  split
  · next p hp =>
    have ho : p.run.InOrder := (hsound.pipeline p hp).inOrder
    have hsilent : p.run.Silent := hsound.silent p hp hover
    split
    · next due hdue =>
      split
      · simp only [(Run.poll_silent ho hsilent e.clock).1]
        refine nears_rephase hover (Phase.isOver_withPipeline.trans hover)
          (Phase.lastStats_withPipeline hp (Run.stats?_poll_silent ho hsilent e.clock)) ?_
          Phase.unsent_withPipeline
        rw [Phase.waiting_eq hp, Phase.waiting_eq (Phase.pipeline?_withPipeline hp)]
      · exact .refl e
    · exact .refl e
  · exact .refl e

theorem nears_tick (hsound : e.phase.Sound) (millis : Nat) :
    Nears e (e.tick millis).1 (e.tick millis).2 := by
  have hdrain := drain_moves hsound
  have hdrained : e.drain.2.phase.isOver = true := (hdrain.ended hover).2.2
  have hpassed : (e.drain.2.pass millis).phase.isOver = true := hdrained
  have hring := ring_moves (e := e.drain.2.pass millis) hdrain.sound
  have hrung := ((nears_drain hover).trans (nears_pass hdrained millis)).trans
    (nears_ring hpassed hdrain.sound)
  simp only [List.append_nil] at hrung
  exact hrung.trans (nears_drain (hring.ended hpassed).2.2)

theorem nears_flush : Nears e [] e.flush := by
  unfold flush
  split
  · next p b unsent hphase =>
    split
    · refine nears_deliver hover (e.counters.queued + 1) e.timerClock [] rfl ?_ ?_ ?_
      · rw [hphase]
        rfl
      · rw [hphase]
        simp [Phase.waiting, Phase.unsent, Phase.pipeline?]
      · rw [hphase, show Phase.unsent (.stopping p (b :: unsent)) = b :: unsent from rfl,
          List.length_cons, Nat.add_assoc, Nat.add_comm 1]
        rfl
    · exact .refl e
  · exact .refl e

theorem nears_signal : Nears e [] e.signal := by
  unfold signal
  split
  · next p hphase =>
    refine nears_rephase hover rfl ?_ ?_ ?_ <;> rw [hphase] <;> rfl
  · exact .refl e

theorem nears_endTimer : Nears e [] e.endTimer := by
  unfold endTimer
  split
  · next p stats dispatcher hphase =>
    refine nears_rephase hover rfl ?_ ?_ ?_ <;> rw [hphase] <;> rfl
  · exact .refl e

/-- Nothing is left in the queue when the dispatcher has ended. -/
theorem nears_endStop (hsound : e.phase.Sound) : Nears e [] e.endStop := by
  unfold endStop
  split
  · next p stats hphase =>
    split
    · have hserved : e.phase.served? = none := by rw [hphase]; rfl
      refine nears_rephase hover rfl ?_ ?_ ?_
      · rw [hphase]
        rfl
      · rw [waiting_of_unserved hsound hserved]
        rfl
      · rw [hphase]
        rfl
    · exact .refl e
  · exact .refl e

/-- **A task** brings the engine nearer to its end. -/
theorem nears_step (hsound : e.phase.Sound) {c : Command} (hc : c.isTask = true) :
    Nears e (e.step c).1.deliveries (e.step c).2 := by
  cases c with
  | dispatch => exact nears_dispatch hover
  | drain => exact nears_drain hover
  | pass millis => exact nears_pass hover millis
  | ring => exact nears_ring hover hsound
  | tick millis => exact nears_tick hover hsound millis
  | flush => exact nears_flush hover
  | signal => exact nears_signal hover
  | endTimer => exact nears_endTimer hover
  | endStop => exact nears_endStop hover hsound
  | _ => cases hc

end

/-- **The tasks**, in whatever order, bring the engine nearer to its end. -/
theorem nears_after {e : Engine} (hsound : e.phase.Sound) (hover : e.phase.isOver = true)
    {tasks : List Command} (htasks : ∀ c ∈ tasks, c.isTask = true) :
    Nears e (e.deliveries tasks) (e.after tasks) := by
  induction tasks generalizing e with
  | nil => exact .refl e
  | cons c tasks ih =>
    obtain ⟨hc, htasks⟩ := List.forall_mem_cons.1 htasks
    obtain ⟨_, hmoves⟩ := step_moves hsound c
    exact (nears_step hover hsound hc).trans (ih hmoves.sound (hmoves.ended hover).2.2 htasks)

/-- **A stop task by task** is a stop.  Whatever the order in which the tasks of a stopping engine
    work, once they have brought it to its end, the same was delivered as by `Engine.stop`, and the
    engine is the same, apart from what the timer shows. -/
theorem stop_by_tasks {e : Engine} (hsound : e.phase.Sound) {p : Pipeline}
    (hrun : e.phase = .running p) {tasks : List Command} (htasks : ∀ c ∈ tasks, c.isTask = true)
    {stats : Option WindowStats} (hend : (e.beginStop.after tasks).phase = .stopped stats) :
    e.beginStop.deliveries tasks = e.stop.1 ∧
      { e.beginStop.after tasks with timerClock := 0 } = { e.stop.2 with timerClock := 0 } := by
  have hbegin := beginStop_moves hsound
  have hover : e.beginStop.phase.isOver = true := by
    rw [beginStop, hrun]
    rfl
  have hnears := nears_after hbegin.sound hover htasks
  have hstop : e.stop = e.beginStop.settle := by rw [stop, hrun]
  unfold Nears ending at hnears
  rw [settle_of_stopped hend, List.append_nil, ← hstop] at hnears
  obtain ⟨hdeliveries, hengine⟩ := Prod.mk.inj hnears
  exact ⟨hdeliveries.symm, hengine.symm⟩

/-! ## The end is reached -/

section

variable {e : Engine} {p : Pipeline} {unsent : List Batch}

theorem phase_drain (h : e.phase = .stopping p unsent) :
    e.drain.2.phase = .stopping { p with queue := [] } unsent := by
  obtain ⟨panics, hdeliver⟩ := deliver_eq
    { e with phase := .stopping { p with queue := [] } unsent } p.queue
  have hdrain : e.drain =
      { e with phase := .stopping { p with queue := [] } unsent }.deliver p.queue := by
    rw [drain, h]
    rfl
  rw [hdrain, hdeliver]

/-- An empty queue has room. -/
theorem phase_flush {b : Batch} (h : e.phase = .stopping p (b :: unsent)) (hqueue : p.queue = [])
    (hcapacity : 0 < p.config.queueCapacity.toNat) :
    e.flush.phase = .stopping { p with queue := [b] } unsent := by
  have hroom : p.hasRoom = true := by
    rw [Pipeline.hasRoom, hqueue]
    exact decide_eq_true hcapacity
  unfold flush
  rw [h]
  simp only [hroom, hqueue]
  rfl

theorem phase_signal (h : e.phase = .stopping p []) :
    e.signal.phase = .closing p p.run.stats? .delivering := by
  rw [signal, h]

theorem phase_dispatch (hserved : e.phase.served? = some p) (hqueue : p.queue = []) :
    e.dispatch.2.phase = e.phase.starve := by
  rw [dispatch, hserved]
  simp only [hqueue]

theorem phase_endTimer {stats : Option WindowStats} {dispatcher : Dispatcher}
    (h : e.phase = .closing p stats dispatcher) :
    e.endTimer.phase = .closing { p with due := none } stats dispatcher := by
  rw [endTimer, h]

theorem phase_endStop {stats : Option WindowStats} (h : e.phase = .closing p stats .ended)
    (hdue : p.due = none) : e.endStop.phase = .stopped stats := by
  rw [endStop, h]
  simp only [hdue]
  rfl

/-- An engine without batches that wait for room ends when the dispatcher has found nothing queued
    twice, before and after it looks whether it is to end. -/
theorem phase_closed (h : e.phase = .stopping p []) (hqueue : p.queue = []) :
    (e.after [.signal, .dispatch, .dispatch, .endTimer, .endStop]).phase =
      .stopped p.run.stats? := by
  have hsignal := phase_signal h
  have hdraining : e.signal.dispatch.2.phase = .closing p p.run.stats? .draining := by
    rw [phase_dispatch (p := p) (by rw [hsignal]; rfl) hqueue, hsignal]
    rfl
  have hended : e.signal.dispatch.2.dispatch.2.phase = .closing p p.run.stats? .ended := by
    rw [phase_dispatch (p := p) (by rw [hdraining]; rfl) hqueue, hdraining]
    rfl
  exact phase_endStop (phase_endTimer hended) rfl

/-- **A stop can be brought to its end**: the queue is emptied for every batch that waits, and then
    the tasks end. -/
theorem exists_tasks_of_stopping (h : e.phase = .stopping p unsent)
    (hcapacity : 0 < p.config.queueCapacity.toNat) :
    ∃ tasks : List Command, (∀ c ∈ tasks, c.isTask = true) ∧
      ∃ stats, (e.after tasks).phase = .stopped stats := by
  induction unsent generalizing e p with
  | nil =>
    refine ⟨[.drain, .signal, .dispatch, .dispatch, .endTimer, .endStop], ?_, p.run.stats?, ?_⟩
    · simp [Command.isTask]
    · exact phase_closed (p := { p with queue := [] }) (phase_drain h) rfl
  | cons b unsent ih =>
    obtain ⟨tasks, htasks, stats, hend⟩ := ih (e := e.drain.2.flush)
      (phase_flush (phase_drain h) rfl hcapacity) hcapacity
    refine ⟨.drain :: .flush :: tasks, ?_, stats, hend⟩
    simpa [Command.isTask] using htasks

end

/-! ## What the sinks are given -/

/-- **Batches are delivered in order**, at most once, and every loss is counted.  At every moment,
    what a sink was given, followed by what waits, is what found room in the queue, in the order in
    which it fired, followed by what fired because the engine stopped.  Once the engine has stopped
    nothing waits, whether or not sinks panic.  A query that is stopped task by task can be brought
    to its end, and then the same was delivered as when it is stopped at once. -/
theorem delivered_in_order {e : Engine} (hidle : e.phase = .idle) (hfresh : e.counters = {})
    (cs : List Command) :
    let e' := e.after cs
    let fired := e.gather fired cs
    let admitted := e.gather admitted cs
    let flushed := e.gather flushed cs
    let given := fun sink => Delivery.batchesOf sink (e.deliveries cs)
    admitted.Sublist fired ∧
      (∀ sink < Sink.recorders e.sinks,
        given sink ++ e'.phase.waiting ++ e'.phase.unsent = admitted ++ flushed) ∧
      (∀ p, e'.phase.pipeline? = some p → p.queue.length ≤ p.config.queueCapacity.toNat) ∧
      e'.counters.dropped + admitted.length = fired.length ∧
      e'.counters.queued + e'.counters.dropped + e'.phase.unsent.length =
        fired.length + flushed.length ∧
      e'.counters.delivered + e'.phase.waiting.length = e'.counters.queued ∧
      (∀ stats, e'.phase = .stopped stats →
        (∀ sink < Sink.recorders e.sinks, given sink = admitted ++ flushed) ∧
          e'.counters.delivered = e'.counters.queued) ∧
      ∀ p, e'.phase = .running p →
        (∀ tasks : List Command, (∀ c ∈ tasks, c.isTask = true) →
          ∀ stats, (e'.beginStop.after tasks).phase = .stopped stats →
            e'.beginStop.deliveries tasks = e'.stop.1 ∧
              { e'.beginStop.after tasks with timerClock := 0 } =
                { e'.stop.2 with timerClock := 0 }) ∧
          ∃ tasks : List Command, (∀ c ∈ tasks, c.isTask = true) ∧
            ∃ stats, (e'.beginStop.after tasks).phase = .stopped stats := by
  intro e' fired admitted flushed given
  have hsound : e.phase.Sound := Phase.sound_of_none (by rw [hidle]; rfl)
  obtain ⟨handed, hmoves⟩ := after_moves hsound cs
  have horder : admitted ++ flushed = handed ++ e'.phase.waiting ++ e'.phase.unsent := by
    simpa [hidle, Phase.waiting, Phase.unsent, Phase.pipeline?] using hmoves.order
  have hqueued : e'.counters.queued + e'.phase.unsent.length =
      admitted.length + flushed.length := by
    simpa [hidle, hfresh, Phase.unsent] using hmoves.queued
  have hdropped : e'.counters.dropped + admitted.length = fired.length := by
    simpa [hfresh] using hmoves.dropped
  have hdelivered : e'.counters.delivered = handed.length := by
    simpa [hfresh] using hmoves.delivered
  have hbalance : e'.counters.delivered + e'.phase.waiting.length = e'.counters.queued := by
    have hlength := congrArg List.length horder
    simp only [List.length_append] at hlength
    omega
  have hgiven : ∀ sink < Sink.recorders e.sinks,
      given sink ++ e'.phase.waiting ++ e'.phase.unsent = admitted ++ flushed := by
    intro sink hsink
    rw [horder, show given sink = handed from hmoves.given sink hsink]
  refine ⟨hmoves.admitted, hgiven, fun p hp => (hmoves.sound.pipeline p hp).bounded, hdropped,
    by omega, hbalance, ?_, ?_⟩
  · intro stats hstopped
    rw [hstopped] at hgiven hbalance
    exact ⟨by simpa [Phase.waiting, Phase.unsent, Phase.pipeline?] using hgiven,
      by simpa [Phase.waiting, Phase.pipeline?] using hbalance⟩
  · intro p hrun
    have hsound' : e'.phase.Sound := hmoves.sound
    have hbegin : e'.beginStop.phase = .stopping { p with run := p.finish.2 } p.finish.1 := by
      rw [beginStop, hrun]
    refine ⟨fun tasks htasks stats hend => stop_by_tasks hsound' hrun htasks hend, ?_⟩
    exact exists_tasks_of_stopping hbegin (hsound'.pipeline p (by rw [hrun]; rfl)).roomy

end Engine

/-- How many of every two records have a value. -/
def Query.pairs : Query where
  fields := [.column (.call "COUNT" [.column "v"]) (some "n")]
  distinct := false
  source := "s"
  condition := none
  groupBy := []
  window := some (.counting 2)
  having := none
  limit := none
  properties := []

/-- The first pair is queued, the second finds the queue full, and the last record is flushed. -/
theorem Engine.delivered_in_order_pairs :
    let e : Engine :=
      { config := { queueCapacity := 1 }, registry := .standard 0
        sinks := [.panicking, .collecting] }
    let record : Command := .emit ⟨[("v", .integer 5)]⟩
    let cs : List Command := [.executeQuery true .pairs, record, record, record, record, record,
      .stop]
    e.phase = .idle ∧ e.counters = {} ∧ (e.after cs).counters.dropped = 1 ∧
      (e.after cs).counters.delivered = 2 ∧
      Delivery.batchesOf 0 (e.deliveries cs) = e.gather admitted cs ++ e.gather flushed cs := by
  intro e record cs
  have hidle : e.phase = .idle := rfl
  have hfresh : e.counters = {} := rfl
  obtain ⟨-, horder, -⟩ := delivered_in_order hidle hfresh cs
  have hend : ((e.after cs).phase.waiting.isEmpty, (e.after cs).phase.unsent.isEmpty,
      (e.after cs).counters.dropped, (e.after cs).counters.delivered) = (true, true, 1, 2) := by
    decide +kernel
  simp only [Prod.mk.injEq, List.isEmpty_iff] at hend
  obtain ⟨hwaiting, hunsent, hdropped, hdelivered⟩ := hend
  have hgiven := horder 0 (by decide)
  rw [hwaiting, hunsent, List.append_nil, List.append_nil] at hgiven
  exact ⟨hidle, hfresh, hdropped, hdelivered, hgiven⟩

end StreamSql
