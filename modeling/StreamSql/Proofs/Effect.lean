/-
  What commands do to an engine.

  A call from outside is refused and leaves the engine as it is, or it does one thing: a query is
  started, a record is taken in, or windows fire.

  * `Effect e c r e'`: the reply `r` to the command `c` and the engine `e'` after it;
  * `step_effect`: every step has an effect of this list.
-/
import Mathlib.Tactic.Common
import StreamSql.Engine.Command

namespace StreamSql

namespace Command

/-- The query that the command starts, if it can be read. -/
def query? : Command → Option Query
  | .execute _ sql => (Query.parse sql).toOption
  | .executeQuery _ query => some query
  | _ => none

/-- The record that the command brings, if it can be read. -/
def record? : Command → Option Record
  | .emit record => some record
  | .emitText text => (Record.ofJson text).toOption
  | _ => none

/-- The command asks for a query to be started. -/
def asksQuery : Command → Bool
  | .execute _ _ | .executeQuery _ _ => true
  | _ => false

/-- The command asks something of the running query. -/
def needsQuery : Command → Bool
  | .emit _ | .emitText _ | .trigger | .poll => true
  | _ => false

theorem asksQuery_of_query? {c : Command} {query : Query} (h : c.query? = some query) :
    c.asksQuery = true := by
  cases c with
  | execute | executeQuery => rfl
  | _ => cases h

theorem needsQuery_of_record? {c : Command} {record : Record} (h : c.record? = some record) :
    c.needsQuery = true := by
  cases c with
  | emit | emitText => rfl
  | _ => cases h

end Command

namespace Phase

variable {phase : Phase}

theorem pipeline?_of_served? {p : Pipeline} (h : phase.served? = some p) :
    phase.pipeline? = some p := by
  unfold served? at h
  split at h
  · cases h
  · exact h

/-- Without a dispatcher at work there is no query, or the dispatcher has ended. -/
theorem served?_eq_none (h : phase.served? = none) :
    phase.pipeline? = none ∨ ∃ p stats, phase = .closing p stats .ended := by
  unfold served? at h
  split at h
  · next p stats => exact .inr ⟨p, stats, rfl⟩
  · exact .inl h

end Phase

namespace Engine

/-! ## Actions run one after the other -/

section

variable {α β : Type} (e : Engine)

theorem reply_get_bind (f : Engine → Action β) (ok : β → Reply) :
    e.reply (get >>= f) ok = e.reply (f e) ok := rfl

theorem reply_modify_bind (g : Engine → Engine) (f : Unit → Action β) (ok : β → Reply) :
    e.reply (modify g >>= f) ok = (g e).reply (f ()) ok := rfl

theorem reply_modify (g : Engine → Engine) (ok : Unit → Reply) :
    e.reply (modify g) ok = (ok (), g e) := rfl

/-- A step that needs nothing of the engine. -/
theorem reply_lift_bind (x : Except QueryError α) (f : α → Action β) (ok : β → Reply) :
    e.reply (liftM x >>= f) ok =
      match x with
      | .ok a => e.reply (f a) ok
      | .error error => (.failed error, e) := by
  cases x <;> rfl

/-- Only a running engine goes on behind the request for its query. -/
theorem reply_pipeline_bind (f : Pipeline → Action β) (ok : β → Reply) :
    e.reply (pipeline >>= f) ok =
      match e.phase with
      | .idle => (.failed (.stream .notRunning), e)
      | .stopping _ _ | .closing _ _ _ | .stopped _ => (.failed (.stream .stopped), e)
      | .running p => e.reply (f p) ok := by
  have hget : e.reply (pipeline >>= f) ok = e.reply ((match e.phase with
      | .idle => throw (.stream .notRunning)
      | .stopping _ _ | .closing _ _ _ | .stopped _ => throw (.stream .stopped)
      | .running p => return p) >>= f) ok := rfl
  rw [hget]
  cases e.phase <;> rfl

/-- Only an idle engine goes on behind the request to start a query. -/
theorem reply_expectIdle_bind (f : Unit → Action β) (ok : β → Reply) :
    e.reply (expectIdle >>= f) ok =
      match e.phase with
      | .idle => e.reply (f ()) ok
      | .running _ => (.failed (.configuration .alreadyRunning), e)
      | .stopping _ _ | .closing _ _ _ | .stopped _ => (.failed (.stream .stopped), e) := by
  have hget : e.reply (expectIdle >>= f) ok = e.reply ((match e.phase with
      | .idle => return
      | .running _ => throw (.configuration .alreadyRunning)
      | .stopping _ _ | .closing _ _ _ | .stopped _ => throw (.stream .stopped)) >>= f) ok := rfl
  rw [hget]
  cases e.phase <;> rfl

end

/-! ## Effects -/

/-- The reply to a command, and the engine after it. -/
inductive Effect (e : Engine) : Command → Reply → Engine → Prop
  /-- a query that cannot be started -/
  | refused {c : Command} (error : QueryError) : c.asksQuery = true → Effect e c (.failed error) e
  /-- a text that is no record -/
  | unreadable {text : String} {error : QueryError} : Record.ofJson text = .error error →
      Effect e (.emitText text) (.failed error) e
  /-- a call that needs a running query where none runs -/
  | absent {c : Command} (error : QueryError) : c.needsQuery = true →
      (∀ p, e.phase ≠ .running p) → Effect e c (.failed error) e
  | started {c : Command} {query : Query} {config : Config} {plan : Plan} :
      c.query? = some query → e.phase = .idle →
      e.config.override ⟨e.environment, query.properties⟩ = .ok config →
      Plan.build query e.registry = .ok plan →
      Effect e c .done { e with phase := .running (.start plan config e.timerClock) }
  /-- a record with an outcome -/
  | taken {c : Command} {record : Record} {p : Pipeline} {processed : Processed} {run : Run} :
      c.record? = some record → e.phase = .running p →
      p.run.process e.clock record = .ok (processed, run) →
      Effect e c .done
        ({ e with counters :=
            { e.counters with received := e.counters.received + 1 }.note processed.outcome }.enqueue
          { p with run } processed.batches)
  /-- a record that could not be processed -/
  | spoiled {c : Command} {record : Record} {p : Pipeline} {error : QueryError} :
      c.record? = some record → e.phase = .running p →
      p.run.process e.clock record = .error error →
      Effect e c .done { e with counters :=
        { e.counters with
          received := e.counters.received + 1
          errors := e.counters.errors + 1 } }
  | triggered {p : Pipeline} : e.phase = .running p →
      Effect e .trigger (.fired p.run.trigger.1.length)
        (e.enqueue { p with run := p.run.trigger.2 } p.run.trigger.1)
  | polled {p : Pipeline} : e.phase = .running p →
      Effect e .poll (.fired (p.run.poll e.clock).1.length)
        (e.enqueue { p with run := (p.run.poll e.clock).2 } (p.run.poll e.clock).1)
  | setClock (millis : Int64) : Effect e (.setClock millis) .done { e with clock := millis }
  | advanceClock (millis : Int64) :
      Effect e (.advanceClock millis) .done { e with clock := e.clock + millis }
  | addSink (sink : Sink) :
      Effect e (.addSink sink) (if sink.recorded then .added (Sink.recorders e.sinks) else .done)
        { e with sinks := e.sinks ++ [sink] }
  | dispatch : Effect e .dispatch (.delivered e.dispatch.1) e.dispatch.2
  | drain : Effect e .drain (.delivered e.drain.1) e.drain.2
  | pass (millis : Nat) : Effect e (.pass millis) .done (e.pass millis)
  | ring : Effect e .ring .done e.ring
  | tick (millis : Nat) : Effect e (.tick millis) (.delivered (e.tick millis).1) (e.tick millis).2
  | beginStop : Effect e .beginStop .done e.beginStop
  | flush : Effect e .flush .done e.flush
  | signal : Effect e .signal .done e.signal
  | endTimer : Effect e .endTimer .done e.endTimer
  | endStop : Effect e .endStop .done e.endStop
  | stop : Effect e .stop (.delivered e.stop.1) e.stop.2

/-- A query that is asked for is refused, or it is valid and the idle engine starts it. -/
theorem executeQuery_effect (e : Engine) {c : Command} (hosted : Bool) {query : Query}
    (hc : c.query? = some query) :
    e.Effect c (e.reply (executeQuery hosted query) fun _ => .done).1
      (e.reply (executeQuery hosted query) fun _ => .done).2 := by
  have hasks := Command.asksQuery_of_query? hc
  unfold executeQuery
  rw [reply_expectIdle_bind]
  cases hphase : e.phase with
  | running | stopping | closing | stopped => exact .refused _ hasks
  | idle =>
    simp only [reply_get_bind, reply_lift_bind]
    cases hconfig : e.config.override ⟨e.environment, query.properties⟩ with
    | error => exact .refused _ hasks
    | ok config =>
      cases hplan : Plan.build query e.registry with
      | error => exact .refused _ hasks
      | ok plan =>
        cases hosted with
        | false => exact .refused _ hasks
        | true => exact .started hc hphase hconfig hplan

theorem execute_effect (e : Engine) (hosted : Bool) (sql : String) :
    e.Effect (.execute hosted sql) (e.reply (execute hosted sql) fun _ => .done).1
      (e.reply (execute hosted sql) fun _ => .done).2 := by
  unfold execute
  rw [reply_lift_bind]
  cases hquery : Query.parse sql with
  | error => exact .refused _ rfl
  | ok query => exact e.executeQuery_effect hosted (by rw [Command.query?, hquery]; rfl)

/-- A record is refused, or the running query takes it in. -/
theorem emit_effect (e : Engine) {c : Command} {record : Record} (hc : c.record? = some record) :
    e.Effect c (e.reply (emit record) fun _ => .done).1
      (e.reply (emit record) fun _ => .done).2 := by
  have hneeds := Command.needsQuery_of_record? hc
  unfold emit
  rw [reply_pipeline_bind]
  cases hphase : e.phase with
  | idle | stopping | closing | stopped =>
    exact .absent _ hneeds fun p h => nomatch hphase.symm.trans h
  | running p =>
    simp only
    rw [reply_modify_bind, reply_get_bind]
    simp only
    cases hprocess : p.run.process e.clock record with
    | ok made =>
      simp only
      rw [reply_modify]
      exact .taken hc hphase hprocess
    | error =>
      simp only
      rw [reply_modify]
      exact .spoiled hc hphase hprocess

theorem emitText_effect (e : Engine) (text : String) :
    e.Effect (.emitText text) (e.reply (emitText text) fun _ => .done).1
      (e.reply (emitText text) fun _ => .done).2 := by
  unfold emitText
  rw [reply_lift_bind]
  cases hrecord : Record.ofJson text with
  | error => exact .unreadable hrecord
  | ok record => exact e.emit_effect (by rw [Command.record?, hrecord]; rfl)

theorem trigger_effect (e : Engine) :
    e.Effect .trigger (e.reply trigger .fired).1 (e.reply trigger .fired).2 := by
  unfold trigger
  rw [reply_pipeline_bind]
  cases hphase : e.phase with
  | idle | stopping | closing | stopped =>
    exact .absent _ rfl fun p h => nomatch hphase.symm.trans h
  | running p => exact .triggered hphase

theorem poll_effect (e : Engine) :
    e.Effect .poll (e.reply poll .fired).1 (e.reply poll .fired).2 := by
  unfold poll
  rw [reply_pipeline_bind]
  cases hphase : e.phase with
  | idle | stopping | closing | stopped =>
    exact .absent _ rfl fun p h => nomatch hphase.symm.trans h
  | running p => exact .polled hphase

/-- **Every step** has one of the effects. -/
theorem step_effect (e : Engine) (c : Command) : e.Effect c (e.step c).1 (e.step c).2 := by
  cases c with
  | execute hosted sql => exact e.execute_effect hosted sql
  | executeQuery hosted query => exact e.executeQuery_effect hosted rfl
  | emit record => exact e.emit_effect rfl
  | emitText text => exact e.emitText_effect text
  | trigger => exact e.trigger_effect
  | poll => exact e.poll_effect
  | setClock millis => exact .setClock millis
  | advanceClock millis => exact .advanceClock millis
  | addSink sink => exact .addSink sink
  | dispatch => exact .dispatch
  | drain => exact .drain
  | pass millis => exact .pass millis
  | ring => exact .ring
  | tick millis => exact .tick millis
  | beginStop => exact .beginStop
  | flush => exact .flush
  | signal => exact .signal
  | endTimer => exact .endTimer
  | endStop => exact .endStop
  | stop => exact .stop

end Engine

end StreamSql
