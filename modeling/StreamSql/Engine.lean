/-
  The engine: one query over its life.

  An engine is idle until it executes a query, then runs it until it is stopped, and stays
  stopped.  Batches wait in a queue of bounded length until they are delivered to the sinks;
  a batch that finds the queue full is dropped and counted.  The batches that fire because
  the engine stops wait for room instead.

  * `Engine.Action`: an operation that changes the engine and may fail;
  * `executeQuery`, `execute`, `emit`, `emitText`, `trigger`, `poll`: the operations on queries and
    records;
  * `Engine.dispatch`, `Engine.drain`: the dispatcher takes a step, or delivers everything queued;
  * `Engine.ring`: the timer of a query with timed windows polls them once in every period;
  * `Engine.beginStop`, `Engine.flush`, `Engine.signal`, `Engine.endTimer`, `Engine.endStop`: the
    engine stops step by step;
  * `Engine.stop`: open windows fire or are dropped, and everything queued is delivered.
-/
import StreamSql.Config.Overrides
import StreamSql.Engine.Sink
import StreamSql.Function.Catalog
import StreamSql.Query.Parser
import StreamSql.Run

namespace StreamSql

/-- Numbers about the records and batches of an engine. -/
structure Counters where
  received : Nat := 0
  filtered : Nat := 0
  projected : Nat := 0
  windowed : Nat := 0
  overLimit : Nat := 0
  duplicate : Nat := 0
  errors : Nat := 0
  queued : Nat := 0
  dropped : Nat := 0
  delivered : Nat := 0
  sinkPanics : Nat := 0
  deriving DecidableEq, Repr

namespace Counters

/-- One record more with this outcome. -/
def note (c : Counters) : Outcome → Counters
  | .filtered => { c with filtered := c.filtered + 1 }
  | .projected => { c with projected := c.projected + 1 }
  | .windowed => { c with windowed := c.windowed + 1 }
  | .duplicate => { c with duplicate := c.duplicate + 1 }
  | .limitReached => { c with overLimit := c.overLimit + 1 }

end Counters

/-- A running query. -/
structure Pipeline where
  run : Run
  config : Config
  /-- the batches that wait for the sinks, the oldest first -/
  queue : List Batch := []
  /-- when the timer polls next, if there is one -/
  due : Option Nat := none

namespace Pipeline

/-- The queue has room for a batch. -/
def hasRoom (p : Pipeline) : Bool :=
  p.queue.length < p.config.queueCapacity.toNat

/-- A batch is put into the queue, or dropped if there is no room for it. -/
def push (p : Pipeline) (c : Counters) (b : Batch) : Pipeline × Counters :=
  if p.hasRoom then
    ({ p with queue := p.queue ++ [b] }, { c with queued := c.queued + 1 })
  else
    (p, { c with dropped := c.dropped + 1 })

/-- Batches are put into the queue one after the other. -/
def pushAll (p : Pipeline) (c : Counters) : List Batch → Pipeline × Counters
  | [] => (p, c)
  | b :: rest =>
    let (p, c) := p.push c b
    p.pushAll c rest

/-- The period of the timer. -/
def period (p : Pipeline) : Nat :=
  p.config.tickMillis.toNat

/-- How late the timer may be and still keep its rhythm, in milliseconds. -/
def tolerance : Nat := 5

/-- When the timer is due after it was due at `due` and polled at `now`. -/
def nextDue (p : Pipeline) (due now : Nat) : Nat :=
  if due + tolerance < now then now + p.period else due + p.period

/-- A query that starts while the timer shows `now`. -/
def start (plan : Plan) (config : Config) (now : Nat) : Pipeline :=
  let run := Run.start plan config
  { run, config, due := if run.isTimed then some (now + config.tickMillis.toNat) else none }

/-- The run of a query that stops: its windows fire or are dropped. -/
def finish (p : Pipeline) : List Batch × Run :=
  if p.config.flushOnStop then p.run.trigger else ([], p.run.discard.2)

end Pipeline

/-- What the dispatcher does that delivers the batches of a query. -/
inductive Dispatcher where
  /-- it waits where nothing is queued -/
  | delivering
  /-- it was told to end, and delivers what is left -/
  | draining
  | ended
  deriving DecidableEq, Repr

/-- Where an engine is in its life. -/
inductive Phase where
  | idle
  | running (pipeline : Pipeline)
  /-- with the batches that fired because the engine stops and still wait for room in the queue -/
  | stopping (pipeline : Pipeline) (unsent : List Batch)
  /-- with the last numbers about the windows; the tasks have been told to end -/
  | closing (pipeline : Pipeline) (stats : Option WindowStats) (dispatcher : Dispatcher)
  /-- with the last numbers about the windows, if the query had any -/
  | stopped (stats : Option WindowStats)

namespace Phase

/-- The pipeline whose tasks are at work, if any. -/
def pipeline? : Phase → Option Pipeline
  | running p | stopping p _ | closing p _ _ => some p
  | idle | stopped _ => none

/-- The pipeline whose dispatcher is at work, if any. -/
def served? : Phase → Option Pipeline
  | closing _ _ .ended => none
  | phase => phase.pipeline?

/-- The same phase with another pipeline. -/
def withPipeline (phase : Phase) (p : Pipeline) : Phase :=
  match phase with
  | running _ => running p
  | stopping _ unsent => stopping p unsent
  | closing _ stats dispatcher => closing p stats dispatcher
  | phase => phase

/-- The dispatcher finds nothing queued: it looks whether it is to end, and ends when it knew. -/
def starve : Phase → Phase
  | closing p stats .delivering => closing p stats .draining
  | closing p stats .draining => closing p stats .ended
  | phase => phase

end Phase

/-- An engine. -/
structure Engine where
  config : Config
  registry : Registry
  environment : Environment := {}
  /-- the clock that records and windows are timed by, in milliseconds -/
  clock : Int64 := 0
  /-- the time that the timer counts by, in milliseconds -/
  timerClock : Nat := 0
  sinks : List Sink := []
  counters : Counters := {}
  phase : Phase := .idle

namespace Engine

/-- An operation that changes the engine and may fail; a failure undoes nothing. -/
abbrev Action := ExceptT QueryError (StateM Engine)

/-- The engine runs a query. -/
def isRunning (e : Engine) : Bool :=
  match e.phase with
  | .running _ => true
  | _ => false

/-- Numbers about the windows of the query, if it has any; there are none while batches that fired
    because the engine stops are put into the queue. -/
def windowStats? (e : Engine) : Option WindowStats :=
  match e.phase with
  | .idle => none
  | .running p => p.run.stats?
  | .stopping _ _ => none
  | .closing _ stats _ => stats
  | .stopped stats => stats

/-! ## The queue -/

/-- The engine goes on with a pipeline, and batches are put into its queue. -/
def enqueue (e : Engine) (p : Pipeline) (batches : List Batch) : Engine :=
  let (p, counters) := p.pushAll e.counters batches
  { e with counters, phase := e.phase.withPipeline p }

/-- Batches are given to all sinks, one after the other. -/
def deliver (e : Engine) : List Batch → List Delivery × Engine
  | [] => ([], e)
  | b :: rest =>
    let (more, e') := { e with
      counters.delivered := e.counters.delivered + 1
      counters.sinkPanics :=
        e.counters.sinkPanics + Sink.panickers e.sinks e.counters.delivered b }.deliver rest
    (Delivery.toAll e.sinks b ++ more, e')

/-- The dispatcher takes a step: it delivers the first batch of the queue, if there is one. -/
def dispatch (e : Engine) : List Delivery × Engine :=
  match e.phase.served? with
  | some p =>
    match p.queue with
    | [] => ([], { e with phase := e.phase.starve })
    | b :: rest => { e with phase := e.phase.withPipeline { p with queue := rest } }.deliver [b]
  | none => ([], e)

/-- Everything queued is delivered. -/
def drain (e : Engine) : List Delivery × Engine :=
  match e.phase.served? with
  | some p => { e with phase := e.phase.withPipeline { p with queue := [] } }.deliver p.queue
  | none => ([], e)

/-! ## Operations -/

/-- The running query. -/
def pipeline : Action Pipeline := do
  match (← get).phase with
  | .idle => throw (.stream .notRunning)
  | .stopping _ _ | .closing _ _ _ | .stopped _ => throw (.stream .stopped)
  | .running p => return p

/-- The engine can start a query. -/
def expectIdle : Action Unit := do
  match (← get).phase with
  | .idle => return
  | .running _ => throw (.configuration .alreadyRunning)
  | .stopping _ _ | .closing _ _ _ | .stopped _ => throw (.stream .stopped)

/-- A query is started; `hosted` tells whether there is a runtime for its tasks. -/
def executeQuery (hosted : Bool) (query : Query) : Action Unit := do
  expectIdle
  let e ← get
  let config ← e.config.override ⟨e.environment, query.properties⟩
  let plan ← Plan.build query e.registry
  if hosted then
    set { e with phase := .running (.start plan config e.timerClock) }
  else
    throw (.configuration .noRuntime)

/-- The query that a text spells is started. -/
def execute (hosted : Bool) (sql : String) : Action Unit := do
  executeQuery hosted (← Query.parse sql)

/-- A record arrives. -/
def emit (record : Record) : Action Unit := do
  let p ← pipeline
  modify fun e => { e with counters.received := e.counters.received + 1 }
  match p.run.process (← get).clock record with
  | .ok (processed, run) =>
    modify fun e =>
      { e with counters := e.counters.note processed.outcome }.enqueue { p with run }
        processed.batches
  | .error _ => modify fun e => { e with counters.errors := e.counters.errors + 1 }

/-- A record arrives as the text of a JSON object. -/
def emitText (text : String) : Action Unit := do
  emit (← Record.ofJson text)

/-- Every open window fires; the number of batches. -/
def trigger : Action Nat := do
  let p ← pipeline
  let (batches, run) := p.run.trigger
  modify fun e => e.enqueue { p with run } batches
  return batches.length

/-- The windows fire whose end is reached; the number of batches. -/
def poll : Action Nat := do
  let p ← pipeline
  let (batches, run) := p.run.poll (← get).clock
  modify fun e => e.enqueue { p with run } batches
  return batches.length

/-! ## Time -/

/-- The time of the timer passes. -/
def pass (e : Engine) (millis : Nat) : Engine :=
  { e with timerClock := e.timerClock + millis }

/-- The timer polls if it is due. -/
def ring (e : Engine) : Engine :=
  match e.phase.pipeline? with
  | some p =>
    match p.due with
    | some due =>
      if due ≤ e.timerClock then
        let (batches, run) := p.run.poll e.clock
        e.enqueue { p with run, due := some (p.nextDue due e.timerClock) } batches
      else
        e
    | none => e
  | none => e

/-- Everything queued is delivered, then the time of the timer passes, and what its poll
    fires is delivered. -/
def tick (e : Engine) (millis : Nat) : List Delivery × Engine :=
  let (before, e) := e.drain
  let (after, e) := (e.pass millis).ring.drain
  (before ++ after, e)

/-! ## The end -/

/-- The engine begins to stop: it takes no more records, and open windows fire or are dropped. -/
def beginStop (e : Engine) : Engine :=
  match e.phase with
  | .idle => { e with phase := .stopped none }
  | .running p =>
    let (flushed, run) := p.finish
    { e with phase := .stopping { p with run } flushed }
  | .stopping _ _ | .closing _ _ _ | .stopped _ => e

/-- The first batch that waits for room in the queue is put there, once there is room. -/
def flush (e : Engine) : Engine :=
  match e.phase with
  | .stopping p (b :: unsent) =>
    if p.hasRoom then
      { e with
        counters.queued := e.counters.queued + 1
        phase := .stopping { p with queue := p.queue ++ [b] } unsent }
    else
      e
  | _ => e

/-- Once nothing waits for room, the numbers about the windows are kept, and the tasks are told to
    end. -/
def signal (e : Engine) : Engine :=
  match e.phase with
  | .stopping p [] => { e with phase := .closing p p.run.stats? .delivering }
  | _ => e

/-- The timer ends, if it was told to. -/
def endTimer (e : Engine) : Engine :=
  match e.phase with
  | .closing p stats dispatcher =>
    { e with phase := .closing { p with due := none } stats dispatcher }
  | _ => e

/-- The engine has stopped once its tasks have ended. -/
def endStop (e : Engine) : Engine :=
  match e.phase with
  | .closing p stats .ended => if p.due.isNone then { e with phase := .stopped stats } else e
  | _ => e

/-- A stopping engine puts what waits for room into the queue, delivers everything, and its tasks
    end. -/
def settle (e : Engine) : List Delivery × Engine :=
  match e.phase with
  | .stopping p unsent =>
    { e with
      counters.queued := e.counters.queued + unsent.length
      phase := .stopped p.run.stats? }.deliver (p.queue ++ unsent)
  | .closing p stats _ => { e with phase := .stopped stats }.deliver p.queue
  | _ => ([], e)

/-- The engine stops, and everything queued and fired is delivered. -/
def stop (e : Engine) : List Delivery × Engine :=
  match e.phase with
  | .idle | .running _ => e.beginStop.settle
  | .stopping _ _ | .closing _ _ _ | .stopped _ => ([], e)

end Engine

end StreamSql
