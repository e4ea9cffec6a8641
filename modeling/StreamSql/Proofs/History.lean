/-
  Histories of a query with windows: what happens to it, one call after the other, and the
  times that it goes by.

  * `Event`: one call; the clock may show anything at each call;
  * `WindowedRun.step`, `WindowedRun.play`: one call and a history of calls;
  * `Run.play`: a history of a query with its condition; what it made is a `Yield`;
  * `Dial`: the event times and the readings of the clock that were seen so far;
  * `arrivals`: the records of a history with the times that they count for;
  * `horizons`: the times that the windows of a history were checked against.

  The times that a query has seen are a function of the events alone (`Dial.after`), whatever
  the windows are.
-/
import Mathlib.Tactic.Common
import StreamSql.Run

namespace StreamSql

/-- What happens to a query with windows. -/
inductive Event where
  | arrival (now : Int64) (record : Record)
  | poll (now : Int64)
  | trigger
  | discard

namespace Event

/-- The event neither fires nor drops all windows. -/
def isQuiet : Event → Bool
  | arrival _ _ | poll _ => true
  | trigger | discard => false

/-- The event does not drop windows. -/
def keeps : Event → Bool
  | discard => false
  | _ => true

end Event

namespace WindowedRun

/-- One event; the batches that it makes. -/
def step (r : WindowedRun) : Event → Except QueryError (List Batch × WindowedRun)
  | .arrival now record => r.process now record
  | .poll now => .ok (r.poll now)
  | .trigger => .ok r.trigger
  | .discard => .ok ([], r.discard.2)

/-- One event after the other; all batches in their order. -/
def play (r : WindowedRun) : List Event → Except QueryError (List Batch × WindowedRun)
  | [] => .ok ([], r)
  | e :: rest => do
    let (batches, r) ← r.step e
    let (more, r) ← r.play rest
    return (batches ++ more, r)

theorem play_cons_ok {r s t : WindowedRun} {e : Event} {rest : List Event}
    {batches more : List Batch} (h : r.step e = .ok (batches, s))
    (h' : s.play rest = .ok (more, t)) : r.play (e :: rest) = .ok (batches ++ more, t) := by
  simp only [play, h, h', bind, Except.bind, pure, Except.pure]

theorem play_cons_iff {r t : WindowedRun} {e : Event} {rest : List Event} {all : List Batch} :
    r.play (e :: rest) = .ok (all, t) ↔ ∃ batches s more, r.step e = .ok (batches, s) ∧
      s.play rest = .ok (more, t) ∧ batches ++ more = all := by
  constructor
  · intro h
    obtain ⟨⟨batches, s⟩, hstep, h⟩ := bind_eq_ok.1 h
    obtain ⟨⟨more, t'⟩, hrest, h⟩ := bind_eq_ok.1 h
    obtain ⟨rfl, rfl⟩ := Prod.mk.inj (Except.ok.inj h)
    exact ⟨batches, s, more, hstep, hrest, rfl⟩
  · rintro ⟨batches, s, more, hstep, hrest, rfl⟩
    exact play_cons_ok hstep hrest

theorem play_append_ok {s t : WindowedRun} {more : List Batch} {later : List Event}
    (h' : s.play later = .ok (more, t)) :
    ∀ {events : List Event} {batches : List Batch} {r : WindowedRun},
      r.play events = .ok (batches, s) → r.play (events ++ later) = .ok (batches ++ more, t)
  | [], _, _, h => by
    obtain ⟨rfl, rfl⟩ := Prod.mk.inj (Except.ok.inj h)
    exact h'
  | _ :: _, _, _, h => by
    obtain ⟨batches, u, tail, hstep, hrest, rfl⟩ := play_cons_iff.1 h
    rw [List.append_assoc]
    exact play_cons_ok hstep (play_append_ok h' hrest)

end WindowedRun

/-! ## Queries with their condition -/

/-- What a history of calls made. -/
structure Yield where
  batches : List Batch := []
  /-- the records that were folded into windows -/
  windowed : List Record := []

namespace Run

/-- One event. -/
def step (r : Run) : Event → Except QueryError (Yield × Run)
  | .arrival now record => do
    let (processed, r) ← r.process now record
    return (⟨processed.batches, if processed.outcome = .windowed then [record] else []⟩, r)
  | .poll now => .ok (⟨(r.poll now).1, []⟩, (r.poll now).2)
  | .trigger => .ok (⟨r.trigger.1, []⟩, r.trigger.2)
  | .discard => .ok ({}, r.discard.2)

/-- One event after the other. -/
def play (r : Run) : List Event → Except QueryError (Yield × Run)
  | [] => .ok ({}, r)
  | e :: rest => do
    let (made, r) ← r.step e
    let (more, r) ← r.play rest
    return (⟨made.batches ++ more.batches, made.windowed ++ more.windowed⟩, r)

end Run

namespace Plan

/-- The event is not a record that fails the condition. -/
def admits (p : Plan) : Event → Bool
  | .arrival _ record => p.accepts record
  | _ => true

end Plan

/-! ## The times that a query goes by -/

/-- The latest event time and the latest reading of the clock. -/
structure Dial where
  latestEvent : Option Int64 := none
  latestClock : Int64 := Int64.minValue

namespace Plan

/-- The event time of a record, if the query names one and it can be read. -/
def eventTime? (p : Plan) (record : Record) : Option Int64 :=
  p.timestamp.bind fun event => (event.extract record).toOption

end Plan

namespace Dial

/-- An event time was read. -/
def note (d : Dial) (time : Int64) : Dial :=
  { d with latestEvent := some (match d.latestEvent with
      | some latest => max latest time
      | none => time) }

/-- The clock was read. -/
def read (d : Dial) (now : Int64) : Dial :=
  { d with latestClock := max now d.latestClock }

/-- What an event lets the query see: the clock is read where there is no event time. -/
def after (p : Plan) (d : Dial) : Event → Dial
  | .arrival now record =>
    match p.eventTime? record with
    | some time => d.note time
    | none => d.read now
  | .poll now => if p.timestamp.isSome then d else d.read now
  | .trigger | .discard => d

/-- The time that a record counts for, once it was seen. -/
def timeOf (p : Plan) (d : Dial) (record : Record) : Int64 :=
  (p.eventTime? record).getD d.latestClock

/-- The time that no event is expected to precede any more. -/
def watermark (lateness : Int64) (d : Dial) : Option Int64 :=
  d.latestEvent.map fun time => Word.subSat time lateness

/-- The time that windows have to be open for. -/
def horizon (p : Plan) (lateness : Int64) (d : Dial) : Option Int64 :=
  if p.timestamp.isSome then d.watermark lateness else some d.latestClock

variable {p : Plan} (d : Dial) (e : Event)

/-- The clock never goes back. -/
theorem latestClock_le_after : d.latestClock.toInt ≤ (d.after p e).latestClock.toInt := by
  have hread : ∀ now, d.latestClock.toInt ≤ (d.read now).latestClock.toInt := fun now => by
    rw [read, Word.toInt_max]
    exact Int.le_max_right ..
  cases e with
  | arrival now record =>
    cases ht : p.eventTime? record with
    | none => simp only [after, ht]; exact hread now
    | some time => simp only [after, ht]; exact Int.le_refl _
  | poll now =>
    simp only [after]
    split
    · exact Int.le_refl _
    · exact hread now
  | trigger => exact Int.le_refl _
  | discard => exact Int.le_refl _

/-- The latest event time never goes back. -/
theorem latestEvent_le_after {latest : Int64} (h : d.latestEvent = some latest) :
    ∃ later, (d.after p e).latestEvent = some later ∧ latest.toInt ≤ later.toInt := by
  cases e with
  | arrival now record =>
    cases ht : p.eventTime? record with
    | none => simp only [after, ht]; exact ⟨latest, h, Int.le_refl _⟩
    | some time =>
      refine ⟨max latest time, by simp only [after, ht, note, h], ?_⟩
      rw [Word.toInt_max]
      exact Int.le_max_left ..
  | poll now =>
    simp only [after]
    split <;> exact ⟨latest, h, Int.le_refl _⟩
  | trigger => exact ⟨latest, h, Int.le_refl _⟩
  | discard => exact ⟨latest, h, Int.le_refl _⟩

/-- The horizon never goes back. -/
theorem horizon_le_after {lateness now : Int64} (h : d.horizon p lateness = some now) :
    ∃ later, (d.after p e).horizon p lateness = some later ∧ now.toInt ≤ later.toInt := by
  unfold horizon at h ⊢
  split at h
  · next ht =>
    obtain ⟨latest, hlatest, rfl⟩ := Option.map_eq_some_iff.1 h
    obtain ⟨later, hlater, hle⟩ := d.latestEvent_le_after e hlatest
    rw [if_pos ht, watermark, hlater]
    exact ⟨_, rfl, Word.nearest_mono (Int.sub_le_sub_right hle _)⟩
  · next ht =>
    obtain rfl := Option.some.inj h
    rw [if_neg ht]
    exact ⟨_, rfl, d.latestClock_le_after e⟩

end Dial

/-- A record with the time that it counts for. -/
structure Arrival where
  time : Int64
  record : Record

/-- The records of a history with the times that they count for. -/
def arrivals (p : Plan) (d : Dial) : List Event → List Arrival
  | [] => []
  | .arrival now record :: rest =>
    let d := d.after p (.arrival now record)
    ⟨d.timeOf p record, record⟩ :: arrivals p d rest
  | e :: rest => arrivals p (d.after p e) rest

theorem arrivals_cons (p : Plan) (d : Dial) (e : Event) (rest : List Event) :
    arrivals p d (e :: rest) = arrivals p d [e] ++ arrivals p (d.after p e) rest := by
  cases e <;> rfl

/-- The times that the windows of a history were checked against. -/
def horizons (p : Plan) (lateness : Int64) (d : Dial) : List Event → List Int64
  | [] => []
  | e :: rest =>
    let d := d.after p e
    (d.horizon p lateness).toList ++ horizons p lateness d rest

theorem horizons_cons (p : Plan) (lateness : Int64) (d : Dial) (e : Event) (rest : List Event) :
    horizons p lateness d (e :: rest) =
      ((d.after p e).horizon p lateness).toList ++ horizons p lateness (d.after p e) rest := rfl

/-! ## The times of a run -/

namespace WindowedRun

/-- The times that the query has seen. -/
def dial (r : WindowedRun) : Dial :=
  ⟨r.latestEvent, r.latestClock⟩

/-- **The time of a record** is that of its event, and is noted. -/
theorem recordTime_eq (r : WindowedRun) (now : Int64) (record : Record) :
    ∃ fallbacks, r.recordTime now record =
      ((r.dial.after r.plan (.arrival now record)).timeOf r.plan record,
        { r with
          latestEvent := (r.dial.after r.plan (.arrival now record)).latestEvent
          latestClock := (r.dial.after r.plan (.arrival now record)).latestClock
          fallbacks }) := by
  unfold recordTime Dial.timeOf Dial.after Plan.eventTime?
  cases r.plan.timestamp with
  | none => exact ⟨_, rfl⟩
  | some event =>
    cases h : event.extract record with
    | ok time => simp only [Option.bind_some, h]; exact ⟨_, rfl⟩
    | error => simp only [Option.bind_some, h]; exact ⟨_, rfl⟩

theorem watermark_eq (r : WindowedRun) : r.watermark = r.dial.watermark r.lateness := rfl

end WindowedRun

/-! ## A query -/

/-- `SELECT COLLECT(id) AS ids FROM s GROUP BY TumblingWindow('5ms') WITH (TIMESTAMP='ts')`. -/
def Plan.collectIds : Plan where
  query := {
    fields := [.column (.call "COLLECT" [.column "id"]) (some "ids")]
    distinct := false
    source := "s"
    condition := none
    groupBy := []
    window := some (.tumbling ⟨5000000⟩)
    having := none
    limit := none
    properties := [("TIMESTAMP", "ts")] }
  condition := none
  groupBy := []
  slots := [{
    name := "COLLECT"
    input := some (.ofExpr (.column "id"))
    parameters := []
    signature := "COLLECT(id)"
    function := ⟨.exactly 1, fun _ => .ok (.collect [])⟩ }]
  outputs := [.column "ids" (.ofExpr (.slot 0))]
  having := none
  window := some (.tumbling ⟨5000000⟩)
  timestamp := some ⟨"ts", .millisecond⟩
  registry := {}

/-- A record with its number and its event time. -/
def Record.numbered (id time : Int64) : Record :=
  ⟨[("id", .integer id), ("ts", .integer time)]⟩

/-- Records at the times 3, 7 and, out of order, 5. -/
def Event.disordered : List Event :=
  [.arrival 0 (.numbered 1 3), .poll 9, .arrival 0 (.numbered 2 7), .arrival 0 (.numbered 3 5)]

end StreamSql
