/-
  Stops of an engine that runs no query.

  Such a stop delivers nothing and changes no number that the engine shows.  An engine that was
  stopped before stays as it is.  An idle one takes part in nothing from then on, which shows in
  the first answer that depends on where the engine is in its life (`Command.asksPhase`).

  * `Engine.report e`: the numbers that the engine shows;
  * `Alike e e' cs`: two engines give the same answers to commands and show the same numbers;
  * `Unasked e cs`: no answer tells whether the engine is idle or stopped;
  * `alike_beginStop_iff`: an idle engine and the same one stopped;
  * `stop_overlooked_iff`: when a stop can be left out of a history.
-/
import StreamSql.Proofs.Accounting
import StreamSql.Proofs.Refusals

namespace StreamSql

namespace Command

/-- The command ends the life of the engine. -/
def stops : Command → Bool
  | .beginStop | .stop => true
  | _ => false

/-- The answer depends on where the engine is in its life. -/
def asksPhase : Command → Bool
  | .trigger | .poll => true
  | c => c.query?.isSome || c.record?.isSome

theorem asksPhase_execute (hosted : Bool) (sql : String) :
    (execute hosted sql).asksPhase = (Query.parse sql).toOption.isSome :=
  Bool.or_false _

theorem asksPhase_emitText (text : String) :
    (emitText text).asksPhase = (Record.ofJson text).toOption.isSome := rfl

theorem not_asksPhase_of_stops {c : Command} (h : c.stops = true) : c.asksPhase = false := by
  cases c with
  | beginStop | stop => rfl
  | _ => cases h

end Command

namespace Engine

/-- The numbers that an engine shows: whether it runs a query, its counters, and its windows. -/
structure Report where
  running : Bool
  counters : Counters
  windows : Option WindowStats

/-- The numbers that an engine shows. -/
def report (e : Engine) : Report :=
  ⟨e.isRunning, e.counters, e.windowStats?⟩

variable {e e' : Engine} {c : Command}

/-! ## The stop -/

theorem beginStop_of_idle (h : e.phase = .idle) :
    e.beginStop = { e with phase := .stopped none } := by
  rw [beginStop, h]

/-- An engine that was stopped before stays as it is. -/
theorem beginStop_of_over (h : e.isRunning = false) (hidle : e.phase ≠ .idle) :
    e.beginStop = e := by
  unfold beginStop
  unfold isRunning at h
  split
  · next hphase => exact absurd hphase hidle
  · next hphase => rw [hphase] at h; cases h
  all_goals rfl

/-- Nothing is delivered, and nothing fires. -/
theorem step_stop (h : e.isRunning = false) : e.step .stop = (.delivered [], e.beginStop) := by
  have hstop : e.stop = ([], e.beginStop) := by
    cases hphase : e.phase with
    | idle =>
      rw [stop, hphase, beginStop_of_idle hphase]
      rfl
    | running => rw [isRunning, hphase] at h; cases h
    | stopping | closing | stopped =>
      rw [stop, hphase, beginStop_of_over h (by rw [hphase]; exact nofun)]
  show (Reply.delivered e.stop.1, e.stop.2) = _
  rw [hstop]

theorem report_beginStop (h : e.isRunning = false) : e.beginStop.report = e.report := by
  cases hphase : e.phase with
  | idle => simp only [beginStop_of_idle hphase, report, isRunning, windowStats?, hphase]
  | running => rw [isRunning, hphase] at h; cases h
  | stopping | closing | stopped => rw [beginStop_of_over h (by rw [hphase]; exact nofun)]

/-! ## One command -/

section

variable (hidle : e.phase = .idle)

include hidle

theorem not_isRunning_of_idle : e.isRunning = false := by
  rw [isRunning, hidle]

/-- A stopped engine refuses what depends on the phase. -/
theorem step_beginStop_of_asksPhase (h : c.asksPhase = true) :
    e.beginStop.step c = (.failed (.stream .stopped), e.beginStop) := by
  have hphase : e.beginStop.phase = .stopped none := by rw [beginStop_of_idle hidle]
  have hquery : ∀ hosted query, e.beginStop.reply (executeQuery hosted query) (fun _ => .done) =
      (.failed (.stream .stopped), e.beginStop) := fun hosted query => by
    rw [executeQuery, reply_expectIdle_bind, hphase]
  have hrecord : ∀ record, e.beginStop.reply (emit record) (fun _ => .done) =
      (.failed (.stream .stopped), e.beginStop) := fun record => by
    rw [emit, reply_pipeline_bind, hphase]
  cases c with
  | execute hosted sql =>
    show e.beginStop.reply (execute hosted sql) _ = _
    rw [execute, reply_lift_bind]
    cases hparse : Query.parse sql with
    | error => rw [Command.asksPhase_execute, hparse] at h; cases h
    | ok query => exact hquery hosted query
  | executeQuery hosted query => exact hquery hosted query
  | emit record => exact hrecord record
  | emitText text =>
    show e.beginStop.reply (emitText text) _ = _
    rw [emitText, reply_lift_bind]
    cases hread : Record.ofJson text with
    | error => rw [Command.asksPhase_emitText, hread] at h; cases h
    | ok record => exact hrecord record
  | trigger =>
    show e.beginStop.reply trigger _ = _
    rw [trigger, reply_pipeline_bind, hphase]
  | poll =>
    show e.beginStop.reply poll _ = _
    rw [poll, reply_pipeline_bind, hphase]
  | _ => cases h

/-- Everything else is answered by the stopped engine as by the idle one. -/
theorem step_beginStop_of_not_asksPhase (h : c.asksPhase = false) (hstops : c.stops = false) :
    e.beginStop.step c = ((e.step c).1, (e.step c).2.beginStop) ∧ (e.step c).2.phase = .idle := by
  obtain ⟨config, registry, environment, clock, timerClock, sinks, counters, phase⟩ := e
  obtain rfl : phase = .idle := hidle
  cases c with
  | execute hosted sql =>
    cases hparse : Query.parse sql with
    | ok => rw [Command.asksPhase_execute, hparse] at h; cases h
    | error =>
      simp only [step, execute, reply_lift_bind, hparse, and_self]
  | emitText text =>
    cases hread : Record.ofJson text with
    | ok => rw [Command.asksPhase_emitText, hread] at h; cases h
    | error =>
      simp only [step, emitText, reply_lift_bind, hread, and_self]
  | executeQuery | emit | trigger | poll => cases h
  | beginStop | stop => cases hstops
  | _ => exact ⟨rfl, rfl⟩

/-- After another stop the two engines are the same. -/
theorem step_beginStop_of_stops (h : c.stops = true) : e.beginStop.step c = e.step c := by
  obtain ⟨config, registry, environment, clock, timerClock, sinks, counters, phase⟩ := e
  obtain rfl : phase = .idle := hidle
  cases c with
  | beginStop | stop => rfl
  | _ => cases h

/-- An idle engine has no query to ask. -/
theorem step_of_needsQuery (hc : c.needsQuery = true) (h : c.asksPhase = true) :
    e.step c = (.failed (.stream .notRunning), e) := by
  have hrecord : ∀ record, e.reply (emit record) (fun _ => .done) =
      (.failed (.stream .notRunning), e) := fun record => by
    rw [emit, reply_pipeline_bind, hidle]
  cases c with
  | emit record => exact hrecord record
  | emitText text =>
    show e.reply (emitText text) _ = _
    rw [emitText, reply_lift_bind]
    cases hread : Record.ofJson text with
    | error => rw [Command.asksPhase_emitText, hread] at h; cases h
    | ok record => exact hrecord record
  | trigger =>
    show e.reply trigger _ = _
    rw [trigger, reply_pipeline_bind, hidle]
  | poll =>
    show e.reply poll _ = _
    rw [poll, reply_pipeline_bind, hidle]
  | _ => cases hc

end

/-! ## Commands given one after the other -/

/-- Two engines give the same answers and show the same numbers throughout. -/
def Alike (e e' : Engine) (cs : List Command) : Prop :=
  e.replies cs = e'.replies cs ∧
    ∀ n, (e.after (cs.take n)).report = (e'.after (cs.take n)).report

theorem Alike.refl (e : Engine) (cs : List Command) : Alike e e cs :=
  ⟨rfl, fun _ => rfl⟩

theorem alike_nil : Alike e e' [] ↔ e.report = e'.report := by
  simp [Alike, replies, after]

theorem alike_cons {cs : List Command} : Alike e e' (c :: cs) ↔
    e.report = e'.report ∧ (e.step c).1 = (e'.step c).1 ∧ Alike (e.step c).2 (e'.step c).2 cs := by
  constructor
  · rintro ⟨hreplies, hreports⟩
    obtain ⟨hfirst, hrest⟩ := List.cons.inj hreplies
    exact ⟨hreports 0, hfirst, hrest, fun n => hreports (n + 1)⟩
  · rintro ⟨hreport, hfirst, hrest, hreports⟩
    refine ⟨congrArg₂ List.cons hfirst hrest, fun n => ?_⟩
    cases n with
    | zero => exact hreport
    | succ n => exact hreports n

/-- No answer before the next stop tells whether the engine is idle or stopped: none depends on
    the phase but those that the stopped engine would give as well. -/
def Unasked (e : Engine) (future : List Command) : Prop :=
  ∀ before c after, future = before ++ c :: after → (∀ d ∈ before, d.stops = false) →
    c.asksPhase = true → ((e.after before).step c).1 = .failed (.stream .stopped)

theorem unasked_nil : Unasked e [] := by
  intro before c after h
  simp at h

theorem unasked_cons {cs : List Command} : Unasked e (c :: cs) ↔
    (c.asksPhase = true → (e.step c).1 = .failed (.stream .stopped)) ∧
      (c.stops = false → Unasked (e.step c).2 cs) := by
  constructor
  · refine fun h => ⟨h [] c cs rfl nofun, fun hstops before d after hcs hbefore => ?_⟩
    exact h (c :: before) d after (by rw [hcs]; rfl) (List.forall_mem_cons.2 ⟨hstops, hbefore⟩)
  · rintro ⟨hfirst, hrest⟩ before d after hcs hbefore
    cases before with
    | nil =>
      obtain ⟨rfl, -⟩ := List.cons.inj hcs
      exact hfirst
    | cons _ before =>
      obtain ⟨rfl, rfl⟩ := List.cons.inj hcs
      obtain ⟨hstops, hbefore⟩ := List.forall_mem_cons.1 hbefore
      exact hrest hstops before d after rfl hbefore

/-- **An idle engine, and the same one stopped**, differ in the first answer that depends on the
    phase. -/
theorem alike_beginStop_iff (hidle : e.phase = .idle) (future : List Command) :
    Alike e.beginStop e future ↔ Unasked e future := by
  have hreport {e : Engine} (hidle : e.phase = .idle) : e.beginStop.report = e.report :=
    report_beginStop (not_isRunning_of_idle hidle)
  induction future generalizing e with
  | nil => exact iff_of_true (alike_nil.2 (hreport hidle)) unasked_nil
  | cons c future ih =>
    rw [alike_cons, unasked_cons]
    cases hstops : c.stops with
    | true =>
      -- the second stop makes the two engines one
      rw [step_beginStop_of_stops hidle hstops]
      simp [hreport hidle, Alike.refl, Command.not_asksPhase_of_stops hstops]
    | false =>
      cases hasks : c.asksPhase with
      | true =>
        rw [step_beginStop_of_asksPhase hidle hasks]
        constructor
        · rintro ⟨-, hanswer, hrest⟩
          rw [step_of_failed hanswer.symm] at hrest ⊢
          exact ⟨fun _ => hanswer.symm, fun _ => (ih hidle).1 hrest⟩
        · rintro ⟨hanswer, hrest⟩
          have hstay := step_of_failed (hanswer rfl)
          rw [hstay] at hrest ⊢
          exact ⟨hreport hidle, (hanswer rfl).symm, (ih hidle).2 (hrest rfl)⟩
      | false =>
        obtain ⟨hstep, hidle'⟩ := step_beginStop_of_not_asksPhase hidle hasks hstops
        rw [hstep]
        simp [hreport hidle, ih hidle']

/-! ## Histories with and without the stop -/

/-- A stop after `past` can be left out: all other answers stay, and so do all numbers that the
    engine shows later on. -/
def Overlooks (e : Engine) (past future : List Command) : Prop :=
  e.replies (past ++ .stop :: future) =
      (e.replies (past ++ future)).insertIdx past.length (.delivered []) ∧
    ∀ n, (e.after (past ++ .stop :: future.take n)).report =
      (e.after (past ++ future.take n)).report

theorem overlooks_iff {past : List Command} (h : (e.after past).isRunning = false)
    (future : List Command) :
    e.Overlooks past future ↔ Alike (e.after past).beginStop (e.after past) future := by
  have hafter : ∀ cs, e.after (past ++ .stop :: cs) = (e.after past).beginStop.after cs :=
    fun cs => by
      rw [after_append]
      show ((e.after past).step .stop).2.after cs = _
      rw [step_stop h]
  have hreplies : e.replies (past ++ .stop :: future) =
      e.replies past ++ .delivered [] :: (e.after past).beginStop.replies future := by
    rw [replies_append]
    show _ ++ ((e.after past).step .stop).1 :: ((e.after past).step .stop).2.replies future = _
    rw [step_stop h]
  unfold Overlooks Alike
  rw [hreplies, replies_append, ← e.length_replies past, insertIdx_length_append]
  simp only [hafter, after_append, List.append_cancel_left_eq, List.cons.injEq, true_and]

/-- **A stop while no query runs.**  It delivers nothing.  If the engine was stopped before, it is a
    no-op and can be left out of every history.  If the engine is idle, it can be left out exactly
    if no later answer before the next stop depends on the phase: the stopped engine refuses every
    such command, while the idle engine starts every valid query, and has none to ask. -/
theorem stop_overlooked_iff {e : Engine} {past : List Command}
    (h : (e.after past).isRunning = false) :
    ((e.after past).step .stop).1 = .delivered [] ∧
      ((e.after past).phase ≠ .idle → ((e.after past).step .stop).2 = e.after past) ∧
      (∀ future, e.Overlooks past future ↔
        ((e.after past).phase = .idle → (e.after past).Unasked future)) ∧
      ((e.after past).phase = .idle → ∀ c : Command, c.asksPhase = true →
        (((e.after past).step .stop).2.step c).1 = .failed (.stream .stopped) ∧
        (c.needsQuery = true → ((e.after past).step c).1 = .failed (.stream .notRunning)) ∧
        ∀ query config plan, c = .executeQuery true query →
          (e.after past).config.override ⟨(e.after past).environment, query.properties⟩ =
            .ok config →
          Plan.build query (e.after past).registry = .ok plan →
          ((e.after past).step c).1 = .done) := by
  rw [step_stop h]
  refine ⟨rfl, beginStop_of_over h, fun future => ?_, fun hidle c hc => ⟨?_, ?_, ?_⟩⟩
  · rw [overlooks_iff h]
    cases hphase : (e.after past).phase with
    | idle =>
      rw [alike_beginStop_iff hphase]
      simp
    | _ =>
      rw [beginStop_of_over h (by rw [hphase]; exact nofun)]
      exact iff_of_true (Alike.refl _ _) nofun
  · rw [step_beginStop_of_asksPhase hidle hc]
  · intro hneeds
    rw [step_of_needsQuery hidle hneeds hc]
  · rintro query config plan rfl hconfig hplan
    rw [step_executeQuery hidle hconfig hplan]

/-- A stop before the first query shows, and one after the end does not. -/
theorem stop_overlooked_iff_first :
    let e : Engine := { config := {}, registry := .standard 0 }
    let query : Command := .executeQuery true .first
    (e.isRunning = false ∧ ¬ e.Overlooks [] [query]) ∧
      (e.after [query, .stop]).isRunning = false ∧ e.Overlooks [query, .stop] [.poll, query] := by
  intro e query
  have hidle : (e.after []).isRunning = false := rfl
  have hover : (e.after [query, .stop]).isRunning = false := by rfl
  refine ⟨⟨hidle, fun hoverlooks => ?_⟩, hover, ?_⟩
  · have hunasked := ((stop_overlooked_iff hidle).2.2.1 [query]).1 hoverlooks rfl
    have hanswer : (e.step query).1 = .failed (.stream .stopped) :=
      hunasked [] query [] rfl nofun rfl
    have hdone : (e.step query).1 = .done := by rfl
    rw [hdone] at hanswer
    cases hanswer
  · refine ((stop_overlooked_iff hover).2.2.1 [.poll, query]).2 fun hphase => ?_
    have hstopped : (e.after [query, .stop]).phase = .stopped none := by rfl
    rw [hstopped] at hphase
    cases hphase

end Engine

end StreamSql
