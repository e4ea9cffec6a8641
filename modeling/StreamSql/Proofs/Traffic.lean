/-
  Batches on their way from the windows to the sinks.

  A batch that fires is put into the queue, if there is room, or counted as dropped; the batches
  that fire because the engine stops wait for room.  The queue is delivered from its front.

  * `Engine.fired`, `Engine.admitted`, `Engine.flushed`: the batches that a command fires, those of
    them that find room, and those that fire because the engine stops;
  * `Flow e t e'`: the traffic `t` between two states of an engine;
  * `Moves e t ds e'`: the same, where every sink is given its part of the deliveries `ds`;
  * `step_moves`, `after_moves`: the traffic of a step, and of a history.
-/
import StreamSql.Proofs.Effect
import StreamSql.Proofs.Overdue
import StreamSql.Proofs.Queue

namespace StreamSql

/-! ## Queries without open windows -/

/-- No window closes where none is open. -/
theorem OpenWindows.Closing.of_ids_nil {w : OpenWindows} {c : List Window × OpenWindows}
    (hc : w.Closing c) (h : w.ids = []) : c.1 = [] ∧ c.2.ids = [] := by
  have hperm := hc.perm
  rw [h] at hperm
  obtain ⟨hclosed, hids⟩ := List.append_eq_nil_iff.1 hperm.nil_eq.symm
  exact ⟨List.map_eq_nil_iff.1 hclosed, hids⟩

namespace Run

/-- Where every group has windows of its own, the list of the groups is in step with them. -/
def InOrder : Run → Prop
  | rows _ => True
  | windowed r => r.windows.InOrder

theorem start_inOrder (plan : Plan) (config : Config) : (start plan config).InOrder := by
  unfold start
  split
  · exact OpenWindows.ofSpec_inOrder _
  · trivial

theorem poll_inOrder {r : Run} (h : r.InOrder) (now : Int64) : (r.poll now).2.InOrder := by
  cases r with
  | rows r => trivial
  | windowed r =>
    show (r.poll now).2.windows.InOrder
    rw [(r.poll_windows now).1]
    exact r.windowsAfter_inOrder h (.poll now)

theorem trigger_inOrder {r : Run} (h : r.InOrder) : r.trigger.2.InOrder := by
  cases r with
  | rows r => trivial
  | windowed r =>
    show (r.settle r.windows.closeAll).2.windows.InOrder
    rw [WindowedRun.settle_windows]
    exact OpenWindows.closeAll_inOrder h

theorem process_inOrder {r s : Run} (h : r.InOrder) {now : Int64} {record : Record}
    {processed : Processed} (hp : r.process now record = .ok (processed, s)) : s.InOrder := by
  unfold process at hp
  split at hp
  · cases r with
    | rows r =>
      obtain ⟨-, rfl⟩ := Prod.mk.inj (Except.ok.inj hp)
      trivial
    | windowed r =>
      obtain ⟨⟨batches, s'⟩, hstep, hp⟩ := bind_eq_ok.1 hp
      obtain ⟨-, rfl⟩ := Prod.mk.inj (Except.ok.inj hp)
      show s'.windows.InOrder
      rw [(WindowedRun.process_windows hstep).1]
      exact r.windowsAfter_inOrder h (.arrival now record)
  · obtain ⟨-, rfl⟩ := Prod.mk.inj (Except.ok.inj hp)
    exact h

/-- No window is open. -/
def Silent : Run → Prop
  | rows _ => True
  | windowed r => r.windows.ids = []

/-- Time fires nothing where no window is open. -/
theorem poll_silent {r : Run} (ho : r.InOrder) (h : r.Silent) (now : Int64) :
    (r.poll now).1 = [] ∧ (r.poll now).2.Silent := by
  cases r with
  | rows r => exact ⟨rfl, trivial⟩
  | windowed r =>
    obtain ⟨latestClock, hpoll⟩ := r.poll_eq now
    obtain ⟨hclosed, hids⟩ := (OpenWindows.closeHorizon_closing ho
      ((r.dial.after r.plan (.poll now)).horizon r.plan r.lateness)).of_ids_nil h
    show (r.poll now).1 = [] ∧ (r.poll now).2.windows.ids = []
    rw [hpoll, WindowedRun.settle_windows]
    refine ⟨?_, hids⟩
    unfold WindowedRun.settle
    rw [hclosed]
    rfl

end Run

namespace Pipeline

/-- The queue has room for a batch and stays within its capacity, and the list of the groups is in
    step with the windows. -/
structure Sound (p : Pipeline) : Prop where
  roomy : 0 < p.config.queueCapacity.toNat
  bounded : p.queue.length ≤ p.config.queueCapacity.toNat
  inOrder : p.run.InOrder

variable {p : Pipeline}

/-- A valid configuration has room for a batch. -/
theorem start_sound (plan : Plan) {config : Config} (h : config.check = .ok ()) (now : Nat) :
    (start plan config now).Sound := by
  refine ⟨?_, Nat.zero_le _, Run.start_inOrder plan config⟩
  show 0 < config.queueCapacity.toNat
  have hne : config.queueCapacity ≠ 0 := fun he => by
    rw [Config.check, Config.fault?, if_pos he] at h
    cases h
  exact Nat.pos_of_ne_zero fun he => hne (UInt64.toNat_inj.1 he)

theorem Sound.finish_inOrder (h : p.Sound) : p.finish.2.InOrder := by
  unfold finish
  split
  · exact Run.trigger_inOrder h.inOrder
  · cases hrun : p.run with
    | rows r => trivial
    | windowed r =>
      have ho : r.windows.InOrder := by
        have hinOrder := h.inOrder
        rwa [hrun] at hinOrder
      exact OpenWindows.closeAll_inOrder ho

/-- No window stays open when the query comes to its end. -/
theorem Sound.finish_silent (h : p.Sound) : p.finish.2.Silent := by
  have ho := h.inOrder
  unfold finish
  cases hrun : p.run with
  | rows r => split <;> trivial
  | windowed r =>
    rw [hrun] at ho
    split
    · show (r.settle r.windows.closeAll).2.windows.ids = []
      rw [WindowedRun.settle_windows, OpenWindows.closeAll_ids ho]
    · exact OpenWindows.closeAll_ids ho

end Pipeline

/-- What a query goes by is valid. -/
theorem Config.check_of_override {c config : Config} {sources : Sources}
    (h : c.override sources = .ok config) : config.check = .ok () := by
  obtain ⟨⟨⟩, hcheck, h⟩ := bind_eq_ok.1 h
  obtain rfl := Except.ok.inj h
  exact hcheck

/-! ## What waits -/

namespace Phase

/-- The batches that wait for the sinks. -/
def waiting (phase : Phase) : List Batch :=
  match phase.pipeline? with
  | some p => p.queue
  | none => []

/-- The batches that wait for room in the queue. -/
def unsent : Phase → List Batch
  | stopping _ unsent => unsent
  | _ => []

/-- The query has come to its end. -/
def isOver : Phase → Bool
  | stopping _ _ | closing _ _ _ | stopped _ => true
  | idle | running _ => false

/-- The pipeline is sound, no window is open when the query is over, and nothing is queued when the
    dispatcher has ended. -/
structure Sound (phase : Phase) : Prop where
  pipeline : ∀ p, phase.pipeline? = some p → p.Sound
  silent : ∀ p, phase.pipeline? = some p → phase.isOver = true → p.run.Silent
  drained : ∀ p, phase.pipeline? = some p → phase.served? = none → p.queue = []

variable {phase : Phase} {p q : Pipeline}

theorem waiting_eq (h : phase.pipeline? = some p) : phase.waiting = p.queue := by
  rw [waiting, h]

theorem pipeline?_withPipeline (h : phase.pipeline? = some p) :
    (phase.withPipeline q).pipeline? = some q := by
  cases phase with
  | idle | stopped => cases h
  | running | stopping | closing => rfl

theorem unsent_withPipeline : (phase.withPipeline q).unsent = phase.unsent := by
  cases phase <;> rfl

theorem isOver_withPipeline : (phase.withPipeline q).isOver = phase.isOver := by
  cases phase <;> rfl

theorem pipeline?_starve : phase.starve.pipeline? = phase.pipeline? := by
  unfold starve
  split <;> rfl

theorem unsent_starve : phase.starve.unsent = phase.unsent := by
  unfold starve
  split <;> rfl

theorem isOver_starve : phase.starve.isOver = phase.isOver := by
  unfold starve
  split <;> rfl

/-- Only at the end of a query batches wait for room. -/
theorem unsent_eq_nil (h : phase.isOver ≠ true) : phase.unsent = [] := by
  cases phase with
  | idle | running => rfl
  | stopping | closing | stopped => exact absurd rfl h

theorem sound_of_none (h : phase.pipeline? = none) : phase.Sound := by
  refine ⟨fun p hp => ?_, fun p hp => ?_, fun p hp => ?_⟩ <;> cases h.symm.trans hp

/-- A dispatcher that finds nothing queued may end. -/
theorem Sound.starve (h : phase.Sound) (hp : phase.pipeline? = some p) (hqueue : p.queue = []) :
    phase.starve.Sound := by
  have honly : ∀ q, phase.starve.pipeline? = some q → q = p := fun q hq =>
    Option.some.inj (hq.symm.trans (pipeline?_starve.trans hp))
  refine ⟨fun q hq => ?_, fun q hq hover => ?_, fun q hq _ => ?_⟩
  · exact h.pipeline q (pipeline?_starve ▸ hq)
  · exact h.silent q (pipeline?_starve ▸ hq) (isOver_starve ▸ hover)
  · rw [honly q hq]
    exact hqueue

theorem served?_withPipeline (hp : phase.pipeline? = some p)
    (h : (phase.withPipeline q).served? = none) : phase.served? = none := by
  cases phase with
  | idle | stopped => cases hp
  | running | stopping => cases h
  | closing p stats dispatcher =>
    cases dispatcher with
    | delivering | draining => cases h
    | ended => rfl

theorem sound_withPipeline (hp : phase.pipeline? = some p) (hq : q.Sound)
    (hsilent : phase.isOver = true → q.run.Silent)
    (hdrained : phase.served? = none → q.queue = []) : (phase.withPipeline q).Sound := by
  have honly : ∀ q', (phase.withPipeline q).pipeline? = some q' → q' = q := fun q' hq' =>
    Option.some.inj (hq'.symm.trans (pipeline?_withPipeline hp))
  refine ⟨fun q' hq' => ?_, fun q' hq' hover => ?_, fun q' hq' hserved => ?_⟩
  · rw [honly q' hq']
    exact hq
  · rw [honly q' hq']
    exact hsilent (isOver_withPipeline.symm.trans hover)
  · rw [honly q' hq']
    exact hdrained (served?_withPipeline hp hserved)

end Phase

/-! ## Traffic -/

/-- Batches on their way, each list in the order in which they went. -/
structure Traffic where
  fired : List Batch := []
  /-- those that found room in the queue -/
  admitted : List Batch := []
  /-- those that fired because the engine stopped -/
  flushed : List Batch := []
  /-- those that were given to the sinks -/
  handed : List Batch := []

instance : Append Traffic :=
  ⟨fun s t => ⟨s.fired ++ t.fired, s.admitted ++ t.admitted, s.flushed ++ t.flushed,
    s.handed ++ t.handed⟩⟩

@[simp] theorem Traffic.mk_append (f f' a a' l l' h h' : List Batch) :
    (⟨f, a, l, h⟩ ++ ⟨f', a', l', h'⟩ : Traffic) = ⟨f ++ f', a ++ a', l ++ l', h ++ h'⟩ :=
  rfl

/-- The counters of batches. -/
def Counters.ofBatches (c : Counters) : Nat × Nat × Nat :=
  (c.queued, c.dropped, c.delivered)

theorem Counters.ofBatches_note (c : Counters) (outcome : Outcome) :
    (c.note outcome).ofBatches = c.ofBatches := by
  cases outcome <;> rfl

namespace Delivery

/-- The batches given to one of the recorded sinks. -/
def batchesOf (sink : Nat) (deliveries : List Delivery) : List Batch :=
  (deliveries.filter fun d => d.sink = sink).map batch

theorem batchesOf_append (sink : Nat) (ds ds' : List Delivery) :
    batchesOf sink (ds ++ ds') = batchesOf sink ds ++ batchesOf sink ds' := by
  simp [batchesOf]

/-- Every recorded sink is given the batch once. -/
theorem batchesOf_toAll {sinks : List Sink} {sink : Nat} (h : sink < Sink.recorders sinks)
    (b : Batch) : batchesOf sink (toAll sinks b) = [b] := by
  have honly : (List.range (Sink.recorders sinks)).filter (fun i => i = sink) = [sink] := by
    rw [List.filter_eq, List.count_eq_one_of_mem List.nodup_range (List.mem_range.2 h)]
    rfl
  rw [batchesOf, toAll, List.filter_map, List.map_map]
  show ((List.range _).filter fun i => decide (i = sink)).map _ = _
  rw [honly]
  rfl

theorem batchesOf_flatMap {sinks : List Sink} {sink : Nat} (h : sink < Sink.recorders sinks)
    (batches : List Batch) : batchesOf sink (batches.flatMap (toAll sinks)) = batches := by
  induction batches with
  | nil => rfl
  | cons b rest ih => rw [List.flatMap_cons, batchesOf_append, batchesOf_toAll h, ih]; rfl

end Delivery

namespace Engine

/-- The traffic between two states of an engine. -/
structure Flow (e : Engine) (t : Traffic) (e' : Engine) : Prop where
  order : e.phase.waiting ++ t.admitted ++ e.phase.unsent ++ t.flushed =
    t.handed ++ e'.phase.waiting ++ e'.phase.unsent
  admitted : t.admitted.Sublist t.fired
  queued : e'.counters.queued + e'.phase.unsent.length =
    e.counters.queued + e.phase.unsent.length + t.admitted.length + t.flushed.length
  dropped : e'.counters.dropped + t.admitted.length = e.counters.dropped + t.fired.length
  delivered : e'.counters.delivered = e.counters.delivered + t.handed.length
  sound : e'.phase.Sound
  ended : e.phase.isOver = true → t.fired = [] ∧ t.flushed = [] ∧ e'.phase.isOver = true
  begun : t.flushed ≠ [] → e'.phase.isOver = true

namespace Flow

variable {e e' e'' : Engine} {s t : Traffic}

/-- What is admitted comes before what is flushed, since nothing fires after the end. -/
theorem order_trans (h : Flow e s e') (h' : Flow e' t e'') :
    e.phase.waiting ++ (s.admitted ++ t.admitted) ++ e.phase.unsent ++ (s.flushed ++ t.flushed) =
      s.handed ++ t.handed ++ e''.phase.waiting ++ e''.phase.unsent := by
  have horder := h.order
  have horder' := h'.order
  by_cases hover : e'.phase.isOver = true
  -- the query is over in between: nothing is admitted any more
  · obtain ⟨hfired, hflushed, -⟩ := h'.ended hover
    have hadmitted : t.admitted = [] := List.sublist_nil.1 (hfired ▸ h'.admitted)
    rw [hadmitted, hflushed, List.append_nil, List.append_nil] at horder' ⊢
    rw [horder]
    simp only [List.append_assoc] at horder' ⊢
    rw [horder']
  -- the query still runs: nothing was flushed, and nothing waits for room
  · have hflushed : s.flushed = [] := by
      by_contra hne
      exact hover (h.begun hne)
    have hunsent : e.phase.unsent = [] := Phase.unsent_eq_nil fun h₀ => hover (h.ended h₀).2.2
    rw [hflushed, hunsent, Phase.unsent_eq_nil hover] at horder
    rw [Phase.unsent_eq_nil hover] at horder'
    rw [hflushed, hunsent]
    simp only [List.append_nil, List.nil_append, List.append_assoc] at horder horder' ⊢
    rw [← horder', ← List.append_assoc, horder, List.append_assoc]

theorem trans (h : Flow e s e') (h' : Flow e' t e'') : Flow e (s ++ t) e'' := by
  refine ⟨h.order_trans h', h.admitted.append h'.admitted, ?_, ?_, ?_, h'.sound, ?_, ?_⟩
  · show _ = _ + (s.admitted ++ t.admitted).length + (s.flushed ++ t.flushed).length
    rw [List.length_append, List.length_append]
    have := h.queued
    have := h'.queued
    omega
  · show _ + (s.admitted ++ t.admitted).length = _ + (s.fired ++ t.fired).length
    rw [List.length_append, List.length_append]
    have := h.dropped
    have := h'.dropped
    omega
  · show _ = _ + (s.handed ++ t.handed).length
    rw [List.length_append, h'.delivered, h.delivered, Nat.add_assoc]
  · intro hover
    obtain ⟨hfired, hflushed, hover'⟩ := h.ended hover
    obtain ⟨hfired', hflushed', hover''⟩ := h'.ended hover'
    exact ⟨List.append_eq_nil_iff.2 ⟨hfired, hfired'⟩,
      List.append_eq_nil_iff.2 ⟨hflushed, hflushed'⟩, hover''⟩
  · intro hflushed
    by_cases hne : s.flushed = []
    · refine h'.begun fun hnil => hflushed ?_
      exact List.append_eq_nil_iff.2 ⟨hne, hnil⟩
    · exact (h'.ended (h.begun hne)).2.2

/-! ### Traffic of the parts -/

/-- A query starts with an empty queue. -/
theorem start (hidle : e.phase = .idle) (plan : Plan) {config : Config}
    (h : config.check = .ok ()) :
    Flow e {} { e with phase := .running (.start plan config e.timerClock) } := by
  refine ⟨?_, .refl _, ?_, rfl, rfl, ⟨?_, ?_, ?_⟩, ?_, nofun⟩
  · rw [hidle]
    rfl
  · rw [hidle]
    rfl
  · rintro _ ⟨⟩
    exact Pipeline.start_sound plan h e.timerClock
  · rintro _ ⟨⟩ ⟨⟩
  · rintro _ ⟨⟩ ⟨⟩
  · rw [hidle]
    nofun

/-- Nothing moves where the phase and the counters of batches stay as they are. -/
theorem still (h : e.phase.Sound) (hphase : e'.phase = e.phase)
    (hcounters : e'.counters.ofBatches = e.counters.ofBatches) : Flow e {} e' := by
  obtain ⟨hqueued, hdropped, hdelivered⟩ :
      e'.counters.queued = e.counters.queued ∧ e'.counters.dropped = e.counters.dropped ∧
        e'.counters.delivered = e.counters.delivered := by
    simpa [Counters.ofBatches] using hcounters
  exact ⟨by simp [hphase], .refl _, by simp [hphase, hqueued], by simp [hdropped],
    by simp [hdelivered], hphase ▸ h, fun hover => ⟨rfl, rfl, hphase ▸ hover⟩, nofun⟩

/-- Nothing moves where what waits stays as it is. -/
theorem rephase {phase : Phase} (hwaiting : phase.waiting = e.phase.waiting)
    (hunsent : phase.unsent = e.phase.unsent) (hsound : phase.Sound)
    (hover : e.phase.isOver = true → phase.isOver = true) : Flow e {} { e with phase } :=
  ⟨by simp [hwaiting, hunsent], .refl _, by simp [hunsent], rfl, rfl, hsound,
    fun h => ⟨rfl, rfl, hover h⟩, nofun⟩

/-- Batches from the front of what waits are delivered. -/
theorem deliver {batches : List Batch} (h : e'.phase.Sound)
    (horder : e.phase.waiting ++ e.phase.unsent =
      batches ++ e'.phase.waiting ++ e'.phase.unsent)
    (hqueued : e'.counters.queued + e'.phase.unsent.length =
      e.counters.queued + e.phase.unsent.length)
    (hdropped : e'.counters.dropped = e.counters.dropped)
    (hdelivered : e'.counters.delivered = e.counters.delivered)
    (hover : e.phase.isOver = true → e'.phase.isOver = true) :
    Flow e { handed := batches } (e'.deliver batches).2 := by
  obtain ⟨panics, hdeliver⟩ := e'.deliver_eq batches
  rw [hdeliver]
  exact ⟨by simpa using horder, .refl _, by simpa using hqueued, by simpa using hdropped,
    by simp [hdelivered], h, fun h₀ => ⟨rfl, rfl, hover h₀⟩, nofun⟩

section

variable {p q : Pipeline} (h : e.phase.Sound)

include h

/-- Batches from the front of the queue are delivered. -/
theorem unload (hserved : e.phase.served? = some p) {batches rest : List Batch}
    (hqueue : p.queue = batches ++ rest) :
    Flow e { handed := batches }
      ({ e with phase := e.phase.withPipeline { p with queue := rest } }.deliver batches).2 := by
  have hp := Phase.pipeline?_of_served? hserved
  have hrest : (e.phase.withPipeline { p with queue := rest }).waiting = rest :=
    Phase.waiting_eq (Phase.pipeline?_withPipeline hp)
  have hunsent := @Phase.unsent_withPipeline e.phase { p with queue := rest }
  refine deliver ?_ ?_ ?_ rfl rfl ?_
  · have hsound := h.pipeline p hp
    refine Phase.sound_withPipeline hp { hsound with bounded := ?_ } (h.silent p hp) fun hnone => ?_
    · have hbounded := hsound.bounded
      rw [hqueue, List.length_append] at hbounded
      exact Nat.le_of_add_left_le hbounded
    · cases hserved.symm.trans hnone
  · show _ = _ ++ Phase.waiting _ ++ Phase.unsent _
    rw [hrest, hunsent, Phase.waiting_eq hp, hqueue]
  · show _ + (Phase.unsent _).length = _
    rw [hunsent]
  · exact Phase.isOver_withPipeline.trans

/-- Batches are put into the queue, as far as there is room; at the end nothing fires. -/
theorem enqueue (hp : e.phase.pipeline? = some p) {batches : List Batch}
    (hqueue : q.queue = p.queue) (hconfig : q.config = p.config) (hrun : q.run.InOrder)
    (hsilent : e.phase.isOver = true → batches = [] ∧ q.run.Silent) :
    Flow e { fired := batches, admitted := p.admitted batches } (e.enqueue q batches) := by
  have hadmitted := Pipeline.admitted_congr hqueue hconfig batches
  have hwaiting : (e.phase.withPipeline { q with queue := q.queue ++ q.admitted batches }).waiting =
      q.queue ++ q.admitted batches :=
    Phase.waiting_eq (Phase.pipeline?_withPipeline hp)
  unfold Engine.enqueue
  rw [Pipeline.pushAll_eq]
  refine ⟨?_, p.admitted_sublist batches, ?_, ?_, rfl, ?_, ?_, nofun⟩
  · show _ = [] ++ Phase.waiting _ ++ Phase.unsent _
    rw [hwaiting, Phase.unsent_withPipeline, Phase.waiting_eq hp, hqueue, hadmitted]
    simp
  · show _ + (Phase.unsent _).length = _
    rw [Phase.unsent_withPipeline, ← hadmitted]
    simp only [List.length_nil]
    omega
  · have hle := (p.admitted_sublist batches).length_le
    rw [← hadmitted] at hle ⊢
    simp only
    omega
  · have hsound := h.pipeline p hp
    refine Phase.sound_withPipeline hp ⟨hconfig ▸ hsound.roomy, ?_, hrun⟩
      (fun hover => (hsilent hover).2) fun hnone => ?_
    · simp only [hqueue, hadmitted, hconfig, List.length_append]
      exact p.length_admitted_le batches hsound.bounded
    · -- the dispatcher has ended, so that nothing is queued and nothing fires
      obtain hnone | ⟨_, _, hended⟩ := Phase.served?_eq_none hnone
      · cases hp.symm.trans hnone
      · have hnothing : batches = [] := (hsilent (by rw [hended]; rfl)).1
        have hempty := h.drained p hp hnone
        simp [hqueue, hempty, hnothing, Pipeline.admitted]
  · exact fun hover => ⟨(hsilent hover).1, rfl, Phase.isOver_withPipeline.trans hover⟩

end

/-- The running query fires. -/
theorem enqueue_running {p : Pipeline} {run : Run} {batches : List Batch} (h : e.phase.Sound)
    (hp : e.phase = .running p) (hrun : run.InOrder) :
    Flow e { fired := batches, admitted := p.admitted batches }
      (e.enqueue { p with run } batches) := by
  refine .enqueue h (by rw [hp]; rfl) rfl rfl hrun ?_
  rw [hp]
  nofun

end Flow

/-! ## Traffic and deliveries -/

/-- The traffic between two states of an engine, of which every sink is given its part. -/
structure Moves (e : Engine) (t : Traffic) (deliveries : List Delivery) (e' : Engine) : Prop
    extends Flow e t e' where
  sinks : Sink.recorders e.sinks ≤ Sink.recorders e'.sinks
  given : ∀ sink < Sink.recorders e.sinks, Delivery.batchesOf sink deliveries = t.handed

namespace Moves

variable {e e' e'' : Engine} {s t : Traffic} {ds ds' : List Delivery}

theorem trans (h : Moves e s ds e') (h' : Moves e' t ds' e'') :
    Moves e (s ++ t) (ds ++ ds') e'' := by
  refine ⟨h.toFlow.trans h'.toFlow, h.sinks.trans h'.sinks, fun sink hsink => ?_⟩
  rw [Delivery.batchesOf_append, h.given sink hsink, h'.given sink (hsink.trans_le h.sinks)]
  rfl

theorem of_flow (h : Flow e t e') (hsinks : Sink.recorders e.sinks ≤ Sink.recorders e'.sinks)
    (hhanded : t.handed = []) : Moves e t [] e' :=
  ⟨h, hsinks, fun _ _ => hhanded.symm⟩

theorem still (h : e.phase.Sound) (hphase : e'.phase = e.phase)
    (hcounters : e'.counters.ofBatches = e.counters.ofBatches) (hsinks : e'.sinks = e.sinks) :
    Moves e {} [] e' :=
  of_flow (.still h hphase hcounters) (by rw [hsinks]) rfl

theorem deliver {batches : List Batch} (h : Flow e { handed := batches } (e'.deliver batches).2)
    (hsinks : e'.sinks = e.sinks) :
    Moves e { handed := batches } (e'.deliver batches).1 (e'.deliver batches).2 := by
  obtain ⟨panics, hdeliver⟩ := e'.deliver_eq batches
  refine ⟨h, ?_, fun sink hsink => ?_⟩
  · rw [hdeliver, ← hsinks]
  · rw [hdeliver, hsinks]
    exact Delivery.batchesOf_flatMap hsink batches

end Moves

/-! ### What fires -/

/-- What the running query gives, if one runs. -/
def ofRunning (e : Engine) (f : Pipeline → List Batch) : List Batch :=
  match e.phase with
  | .running p => f p
  | _ => []

/-- The batches that a record fires. -/
def yielded (e : Engine) (record : Record) : List Batch :=
  e.ofRunning fun p =>
    match p.run.process e.clock record with
    | .ok (processed, _) => processed.batches
    | .error _ => []

/-- The batches that the timer fires when it rings. -/
def rung (e : Engine) : List Batch :=
  match e.phase.pipeline? with
  | some p =>
    match p.due with
    | some due => if due ≤ e.timerClock then (p.run.poll e.clock).1 else []
    | none => []
  | none => []

/-- Those of the batches that find room in the queue. -/
def withRoom (e : Engine) (batches : List Batch) : List Batch :=
  match e.phase.pipeline? with
  | some p => p.admitted batches
  | none => []

/-- The engine as a command finds it when it lets windows fire: a tick delivers what is queued
    before. -/
def firing (e : Engine) : Command → Engine
  | .tick millis => e.drain.2.pass millis
  | _ => e

/-- The batches that a command fires while the query runs. -/
def fired (e : Engine) (c : Command) : List Batch :=
  match c with
  | .trigger => e.ofRunning fun p => p.run.trigger.1
  | .poll => e.ofRunning fun p => (p.run.poll e.clock).1
  | .ring | .tick _ => (e.firing c).rung
  | c =>
    match c.record? with
    | some record => e.yielded record
    | none => []

/-- Those of the fired batches that find room in the queue. -/
def admitted (e : Engine) (c : Command) : List Batch :=
  (e.firing c).withRoom (e.fired c)

/-- The batches that fire because the command stops the engine. -/
def flushed (e : Engine) : Command → List Batch
  | .beginStop | .stop => e.ofRunning fun p => p.finish.1
  | _ => []

section

variable {e : Engine} (h : e.phase.Sound)

include h

/-- Without a dispatcher at work nothing waits in the queue. -/
theorem waiting_of_unserved (hserved : e.phase.served? = none) : e.phase.waiting = [] := by
  cases hp : e.phase.pipeline? with
  | none => rw [Phase.waiting, hp]
  | some p =>
    rw [Phase.waiting_eq hp]
    exact h.drained p hp hserved

theorem dispatch_moves :
    Moves e { handed := e.phase.waiting.take 1 } e.dispatch.1 e.dispatch.2 := by
  unfold Engine.dispatch
  cases hserved : e.phase.served? with
  | none =>
    rw [waiting_of_unserved h hserved]
    exact .still h rfl rfl rfl
  | some p =>
    have hp := Phase.pipeline?_of_served? hserved
    rw [Phase.waiting_eq hp]
    simp only
    cases hqueue : p.queue with
    | nil =>
      have hwaiting : e.phase.starve.waiting = e.phase.waiting := by
        rw [Phase.waiting, Phase.waiting, Phase.pipeline?_starve]
      exact .of_flow (.rephase hwaiting Phase.unsent_starve (h.starve hp hqueue)
        Phase.isOver_starve.trans) le_rfl rfl
    | cons b rest => exact .deliver (.unload h hserved hqueue) rfl

theorem drain_moves : Moves e { handed := e.phase.waiting } e.drain.1 e.drain.2 := by
  unfold Engine.drain
  cases hserved : e.phase.served? with
  | none =>
    rw [waiting_of_unserved h hserved]
    exact .still h rfl rfl rfl
  | some p =>
    rw [Phase.waiting_eq (Phase.pipeline?_of_served? hserved)]
    exact .deliver (.unload h hserved (List.append_nil _).symm) rfl

theorem ring_moves :
    Moves e { fired := e.rung, admitted := e.withRoom e.rung } [] e.ring := by
  have hstill : Moves e {} [] e := .still h rfl rfl rfl
  unfold Engine.ring rung withRoom
  cases hp : e.phase.pipeline? with
  | none => exact hstill
  | some p =>
    simp only
    cases hdue : p.due with
    | none => exact hstill
    | some due =>
      simp only
      split
      · have ho := (h.pipeline p hp).inOrder
        exact .of_flow (.enqueue h hp rfl rfl (Run.poll_inOrder ho e.clock) fun hover =>
          Run.poll_silent ho (h.silent p hp hover) e.clock) le_rfl rfl
      · exact hstill

theorem tick_moves (millis : Nat) :
    ∃ handed, Moves e ⟨e.fired (.tick millis), e.admitted (.tick millis), [], handed⟩
      (e.tick millis).1 (e.tick millis).2 := by
  have hbefore := drain_moves h
  have hpass : Moves e.drain.2 {} [] (e.drain.2.pass millis) :=
    .still hbefore.sound rfl rfl rfl
  have hring := ring_moves hpass.sound
  have hafter := drain_moves hring.sound
  have htick := ((hbefore.trans hpass).trans hring).trans hafter
  simp only [Traffic.mk_append, List.append_nil, List.nil_append] at htick
  exact ⟨_, htick⟩

theorem beginStop_moves : Moves e { flushed := e.flushed .beginStop } [] e.beginStop := by
  unfold Engine.beginStop flushed ofRunning
  cases hphase : e.phase with
  | idle =>
    refine .of_flow ⟨?_, .refl _, ?_, rfl, rfl, Phase.sound_of_none rfl,
      fun _ => ⟨rfl, rfl, rfl⟩, nofun⟩ le_rfl rfl
    all_goals rw [hphase]; rfl
  | running p =>
    have hp : e.phase.pipeline? = some p := by rw [hphase]; rfl
    have hsound := h.pipeline p hp
    refine .of_flow ⟨?_, .refl _, ?_, rfl, rfl, ⟨?_, ?_, ?_⟩, ?_, fun _ => rfl⟩ le_rfl rfl
    · rw [hphase]
      simp [Phase.waiting, Phase.unsent, Phase.pipeline?]
    · rw [hphase]
      rfl
    · rintro _ ⟨⟩
      exact ⟨hsound.roomy, hsound.bounded, hsound.finish_inOrder⟩
    · rintro _ ⟨⟩ -
      exact hsound.finish_silent
    · rintro _ ⟨⟩ ⟨⟩
    · rw [hphase]
      nofun
  | stopping | closing | stopped => exact .still h rfl rfl rfl

theorem flush_moves : Moves e {} [] e.flush := by
  have hstill : Moves e {} [] e := .still h rfl rfl rfl
  unfold Engine.flush
  split
  · next p b unsent hphase =>
    have hp : e.phase.pipeline? = some p := by rw [hphase]; rfl
    split
    · next hroom =>
      have hsound := h.pipeline p hp
      refine .of_flow ⟨?_, .refl _, ?_, rfl, rfl, ⟨?_, ?_, ?_⟩, fun _ => ⟨rfl, rfl, rfl⟩, nofun⟩
        le_rfl rfl
      · rw [hphase]
        simp [Phase.waiting, Phase.unsent, Phase.pipeline?]
      · rw [hphase]
        simp only [Phase.unsent, List.length_cons, List.length_nil]
        omega
      · rintro _ ⟨⟩
        have hlt : p.queue.length < p.config.queueCapacity.toNat := of_decide_eq_true hroom
        exact { hsound with bounded := by simpa using Nat.succ_le_of_lt hlt }
      · rintro _ ⟨⟩ -
        exact h.silent p hp (by rw [hphase]; rfl)
      · rintro _ ⟨⟩ ⟨⟩
    · exact hstill
  · exact hstill

theorem signal_moves : Moves e {} [] e.signal := by
  unfold Engine.signal
  split
  · next p hphase =>
    have hp : e.phase.pipeline? = some p := by rw [hphase]; rfl
    refine .of_flow (.rephase ?_ ?_ ⟨?_, ?_, ?_⟩ fun _ => rfl) le_rfl rfl
    · rw [hphase]
      rfl
    · rw [hphase]
      rfl
    · rintro _ ⟨⟩
      exact h.pipeline p hp
    · rintro _ ⟨⟩ -
      exact h.silent p hp (by rw [hphase]; rfl)
    · rintro _ ⟨⟩ ⟨⟩
  · exact .still h rfl rfl rfl

theorem endTimer_moves : Moves e {} [] e.endTimer := by
  unfold Engine.endTimer
  split
  · next p stats dispatcher hphase =>
    have hp : e.phase.pipeline? = some p := by rw [hphase]; rfl
    refine .of_flow (.rephase ?_ ?_ ⟨?_, ?_, ?_⟩ fun _ => rfl) le_rfl rfl
    · rw [hphase]
      rfl
    · rw [hphase]
      rfl
    · rintro _ ⟨⟩
      obtain ⟨hroomy, hbounded, hinOrder⟩ := h.pipeline p hp
      exact ⟨hroomy, hbounded, hinOrder⟩
    · rintro _ ⟨⟩ -
      exact h.silent p hp (by rw [hphase]; rfl)
    · rintro _ ⟨⟩ hserved
      refine h.drained p hp ?_
      rw [hphase]
      cases dispatcher with
      | delivering | draining => cases hserved
      | ended => rfl
  · exact .still h rfl rfl rfl

/-- Nothing is left in the queue when the dispatcher has ended. -/
theorem endStop_moves : Moves e {} [] e.endStop := by
  have hstill : Moves e {} [] e := .still h rfl rfl rfl
  unfold Engine.endStop
  split
  · next p stats hphase =>
    split
    · have hqueue : p.queue = [] := h.drained p (by rw [hphase]; rfl) (by rw [hphase]; rfl)
      refine .of_flow (.rephase ?_ ?_ (Phase.sound_of_none rfl) fun _ => rfl) le_rfl rfl
      · rw [hphase, show Phase.waiting (.closing p stats .ended) = p.queue from rfl, hqueue]
        rfl
      · rw [hphase]
        rfl
    · exact hstill
  · exact hstill

theorem settle_moves : ∃ handed, Moves e { handed := handed } e.settle.1 e.settle.2 := by
  unfold Engine.settle
  split
  · next p unsent hphase =>
    refine ⟨p.queue ++ unsent, .deliver (.deliver (Phase.sound_of_none rfl) ?_ ?_ rfl rfl ?_) rfl⟩
    · rw [hphase]
      simp [Phase.waiting, Phase.unsent, Phase.pipeline?]
    · rw [hphase]
      rfl
    · exact fun _ => rfl
  · next p stats dispatcher hphase =>
    refine ⟨p.queue, .deliver (.deliver (Phase.sound_of_none rfl) ?_ ?_ rfl rfl ?_) rfl⟩
    · rw [hphase]
      simp [Phase.waiting, Phase.unsent, Phase.pipeline?]
    · rw [hphase]
      rfl
    · exact fun _ => rfl
  · exact ⟨_, .still h rfl rfl rfl⟩

theorem stop_moves :
    ∃ handed, Moves e { flushed := e.flushed .stop, handed := handed } e.stop.1 e.stop.2 := by
  have hbegin := beginStop_moves h
  obtain ⟨handed, hsettle⟩ := settle_moves hbegin.sound
  have hstop : Moves e { flushed := e.flushed .stop, handed := handed } e.beginStop.settle.1
      e.beginStop.settle.2 := by
    simpa [flushed] using hbegin.trans hsettle
  unfold Engine.stop
  cases hphase : e.phase with
  | idle | running => exact ⟨handed, hstop⟩
  | stopping | closing | stopped =>
    refine ⟨[], ?_⟩
    unfold flushed ofRunning
    rw [hphase]
    exact .still h rfl rfl rfl

end

/-! ### A step -/

section

variable {e e' : Engine} {c : Command}

theorem admitted_of_fired_nil (h : e.fired c = []) : e.admitted c = [] := by
  unfold admitted withRoom
  rw [h]
  split <;> rfl

/-- The command fires nothing. -/
theorem moves_of_fired_nil {handed : List Batch} {ds : List Delivery} (hfired : e.fired c = [])
    (hflushed : e.flushed c = []) (h : Moves e { handed := handed } ds e') :
    ∃ handed, Moves e ⟨e.fired c, e.admitted c, e.flushed c, handed⟩ ds e' := by
  rw [admitted_of_fired_nil hfired, hfired, hflushed]
  exact ⟨handed, h⟩

/-- The running query fires. -/
theorem moves_of_running {p : Pipeline} {batches : List Batch} (hp : e.phase = .running p)
    (hfiring : e.firing c = e) (hfired : e.fired c = batches) (hflushed : e.flushed c = [])
    (hsinks : Sink.recorders e.sinks ≤ Sink.recorders e'.sinks)
    (h : Flow e { fired := batches, admitted := p.admitted batches } e') :
    ∃ handed, Moves e ⟨e.fired c, e.admitted c, e.flushed c, handed⟩ [] e' := by
  have hadmitted : e.admitted c = p.admitted batches := by
    unfold admitted withRoom
    rw [hfiring, hfired, hp]
    rfl
  rw [hadmitted, hfired, hflushed]
  exact ⟨[], .of_flow h hsinks rfl⟩

theorem fired_of_asksQuery (h : c.asksQuery = true) : e.fired c = [] ∧ e.flushed c = [] := by
  cases c with
  | execute | executeQuery => exact ⟨rfl, rfl⟩
  | _ => cases h

/-- What a record fires. -/
theorem fired_of_record? {record : Record} (h : c.record? = some record) :
    e.fired c = e.yielded record ∧ e.flushed c = [] ∧ e.firing c = e := by
  cases c with
  | emit => cases h; exact ⟨rfl, rfl, rfl⟩
  | emitText text =>
    refine ⟨?_, rfl, rfl⟩
    show (match Command.record? (.emitText text) with
      | some record => e.yielded record
      | none => []) = _
    rw [h]
  | _ => cases h

theorem fired_of_unreadable {text : String} {error : QueryError}
    (h : Record.ofJson text = .error error) : e.fired (.emitText text) = [] := by
  show (match (Record.ofJson text).toOption with
    | some record => e.yielded record
    | none => []) = _
  rw [h]
  rfl

theorem fired_of_needsQuery (h : c.needsQuery = true) (hrun : ∀ p, e.phase ≠ .running p) :
    e.fired c = [] ∧ e.flushed c = [] := by
  have hnone : ∀ f, e.ofRunning f = [] := by
    intro f
    unfold ofRunning
    split
    · next p hp => exact absurd hp (hrun p)
    · rfl
  cases c with
  | trigger | poll => exact ⟨hnone _, rfl⟩
  | emit record => exact ⟨hnone _, rfl⟩
  | emitText text =>
    refine ⟨?_, rfl⟩
    show (match (Record.ofJson text).toOption with
      | some record => e.yielded record
      | none => []) = _
    split
    · exact hnone _
    · rfl
  | _ => cases h

end

/-- **A step** moves what it fires into the queue, as far as there is room. -/
theorem step_moves {e : Engine} (h : e.phase.Sound) (c : Command) :
    ∃ handed, Moves e ⟨e.fired c, e.admitted c, e.flushed c, handed⟩
      (e.step c).1.deliveries (e.step c).2 := by
  have hstill : Moves e {} [] e := .still h rfl rfl rfl
  have heffect := e.step_effect c
  generalize (e.step c).1 = reply at heffect ⊢
  generalize (e.step c).2 = e' at heffect ⊢
  cases heffect with
  | refused _ hasks =>
    obtain ⟨hfired, hflushed⟩ := fired_of_asksQuery hasks
    exact moves_of_fired_nil hfired hflushed hstill
  | unreadable hread => exact moves_of_fired_nil (fired_of_unreadable hread) rfl hstill
  | absent _ hneeds hrun =>
    obtain ⟨hfired, hflushed⟩ := fired_of_needsQuery hneeds hrun
    exact moves_of_fired_nil hfired hflushed hstill
  | @started _ query config plan hc hidle hconfig =>
    obtain ⟨hfired, hflushed⟩ := fired_of_asksQuery (e := e) (Command.asksQuery_of_query? hc)
    exact moves_of_fired_nil hfired hflushed
      (.of_flow (.start hidle plan (Config.check_of_override hconfig)) le_rfl rfl)
  | @taken _ record p processed run hc hp hprocess =>
    obtain ⟨hyielded, hflushed, hfiring⟩ := fired_of_record? (e := e) hc
    have hfired : e.fired c = processed.batches := by
      rw [hyielded, yielded, ofRunning, hp]
      simp only
      rw [hprocess]
    refine moves_of_running hp hfiring hfired hflushed le_rfl ?_
    have ho := (h.pipeline p (by rw [hp]; rfl)).inOrder
    have hcount : Flow e {} { e with counters :=
        { e.counters with received := e.counters.received + 1 }.note processed.outcome } :=
      .still h rfl (Counters.ofBatches_note _ _)
    exact hcount.trans (.enqueue_running hcount.sound hp (Run.process_inOrder ho hprocess))
  | @spoiled _ record p error hc hp hprocess =>
    obtain ⟨hyielded, hflushed, -⟩ := fired_of_record? (e := e) hc
    have hfired : e.fired c = [] := by
      rw [hyielded, yielded, ofRunning, hp]
      simp only
      rw [hprocess]
    exact moves_of_fired_nil hfired hflushed (.still h rfl rfl rfl)
  | @triggered p hp =>
    have hfired : e.fired .trigger = p.run.trigger.1 := by rw [fired, ofRunning, hp]
    have ho := (h.pipeline p (by rw [hp]; rfl)).inOrder
    exact moves_of_running hp rfl hfired rfl le_rfl
      (.enqueue_running h hp (Run.trigger_inOrder ho))
  | @polled p hp =>
    have hfired : e.fired .poll = (p.run.poll e.clock).1 := by rw [fired, ofRunning, hp]
    have ho := (h.pipeline p (by rw [hp]; rfl)).inOrder
    exact moves_of_running hp rfl hfired rfl le_rfl
      (.enqueue_running h hp (Run.poll_inOrder ho e.clock))
  | setClock | advanceClock =>
    exact moves_of_fired_nil rfl rfl (.still h rfl rfl rfl)
  | addSink sink =>
    have hsinks : Sink.recorders e.sinks ≤ Sink.recorders (e.sinks ++ [sink]) := by
      rw [Sink.recorders, Sink.recorders, List.countP_append]
      exact Nat.le_add_right _ _
    have hreply : Reply.deliveries (if sink.recorded then .added (Sink.recorders e.sinks)
        else .done) = [] := by
      split <;> rfl
    rw [hreply]
    exact moves_of_fired_nil rfl rfl (.of_flow (.still h rfl rfl) hsinks rfl)
  | dispatch => exact moves_of_fired_nil rfl rfl (dispatch_moves h)
  | drain => exact moves_of_fired_nil rfl rfl (drain_moves h)
  | pass => exact moves_of_fired_nil rfl rfl (.still h rfl rfl rfl)
  | ring => exact ⟨[], ring_moves h⟩
  | tick millis => exact tick_moves h millis
  | beginStop =>
    refine ⟨[], ?_⟩
    rw [admitted_of_fired_nil rfl]
    exact beginStop_moves h
  | flush => exact moves_of_fired_nil rfl rfl (flush_moves h)
  | signal => exact moves_of_fired_nil rfl rfl (signal_moves h)
  | endTimer => exact moves_of_fired_nil rfl rfl (endTimer_moves h)
  | endStop => exact moves_of_fired_nil rfl rfl (endStop_moves h)
  | stop =>
    obtain ⟨handed, hstop⟩ := stop_moves h
    refine ⟨handed, ?_⟩
    rw [admitted_of_fired_nil rfl]
    exact hstop

/-! ## Histories -/

/-- What the commands of a history contribute, one after the other. -/
def gather (f : Engine → Command → List Batch) (e : Engine) : List Command → List Batch
  | [] => []
  | c :: rest => f e c ++ gather f (e.step c).2 rest

/-- The deliveries of a history. -/
def deliveries (e : Engine) (cs : List Command) : List Delivery :=
  (e.replies cs).flatMap Reply.deliveries

/-- **A history** moves what fires, step after step. -/
theorem after_moves {e : Engine} (h : e.phase.Sound) (cs : List Command) :
    ∃ handed, Moves e ⟨e.gather fired cs, e.gather admitted cs, e.gather flushed cs, handed⟩
      (e.deliveries cs) (e.after cs) := by
  induction cs generalizing e with
  | nil => exact ⟨[], .still h rfl rfl rfl⟩
  | cons c cs ih =>
    obtain ⟨handed, hstep⟩ := step_moves h c
    obtain ⟨more, hrest⟩ := ih hstep.sound
    exact ⟨handed ++ more, hstep.trans hrest⟩

end Engine

end StreamSql
