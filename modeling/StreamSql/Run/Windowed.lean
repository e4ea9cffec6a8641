/-
  A query with windows at work.

  A record is folded into its group in every window that it is assigned to.  Its time is its
  event time, if the query names one, and the time of the clock otherwise or where the event
  time cannot be read; the clock never goes back.  The watermark follows the latest event
  time at the distance of the lateness allowed.

  A window fires when its end is reached by the watermark, or by the clock if there is no
  event time, when it is full, and when a later record ends it.  The row of each of its
  groups goes into one batch, in the order in which the groups came.

  * `WindowedRun.process`: a record arrives;
  * `WindowedRun.poll`: the windows fire whose end is reached;
  * `WindowedRun.trigger`, `WindowedRun.discard`: every window fires, or is dropped.
-/
import StreamSql.Plan.Projection
import StreamSql.Window.Opened

namespace StreamSql

/-- Numbers about the windows of a query. -/
structure WindowStats where
  opened : Nat
  fired : Nat
  /-- records for windows that the watermark had passed -/
  late : Nat
  /-- records whose event time could not be read -/
  fallbacks : Nat
  watermark : Option Int64
  deriving DecidableEq, Repr

/-- The groups of every open window, by its number. -/
abbrev Arena := List (Nat × Groups Group)

namespace Arena

/-- The groups of a window; none if it has no record yet. -/
def groups (a : Arena) (id : Nat) : Groups Group :=
  (a.lookup id).getD []

/-- The arena without a window. -/
def erase (a : Arena) (id : Nat) : Arena :=
  a.filter fun row => row.1 != id

/-- The groups of a window replaced. -/
def set (a : Arena) (id : Nat) (groups : Groups Group) : Arena :=
  a.erase id ++ [(id, groups)]

end Arena

/-- A query with windows at work. -/
structure WindowedRun where
  plan : Plan
  substitute : Substitute
  /-- how far the watermark stays behind the latest event time, in milliseconds -/
  lateness : Int64
  windows : OpenWindows
  arena : Arena := []
  latestEvent : Option Int64 := none
  /-- the latest time of the clock that was read -/
  latestClock : Int64 := Int64.minValue
  fired : Nat := 0
  late : Nat := 0
  fallbacks : Nat := 0

namespace WindowedRun

/-- The query before its first record. -/
def start (plan : Plan) (spec : WindowSpec) (config : Config) : WindowedRun :=
  { plan, substitute := config.substitute, lateness := config.lateness
    windows := .ofSpec spec }

/-! ## Time -/

/-- The query names an event time. -/
def hasEventTime (r : WindowedRun) : Bool :=
  r.plan.timestamp.isSome

/-- The time that no event is expected to precede any more. -/
def watermark (r : WindowedRun) : Option Int64 :=
  r.latestEvent.map fun time => Word.subSat time r.lateness

/-- The time of the clock, or the latest one if the clock went back. -/
def readClock (r : WindowedRun) (now : Int64) : Int64 × WindowedRun :=
  let time := max now r.latestClock
  (time, { r with latestClock := time })

/-- An event time was read. -/
def noteEvent (r : WindowedRun) (time : Int64) : WindowedRun :=
  { r with latestEvent := some (match r.latestEvent with
      | some latest => max latest time
      | none => time) }

/-- The time of a record. -/
def recordTime (r : WindowedRun) (now : Int64) (record : Record) : Int64 × WindowedRun :=
  match r.plan.timestamp with
  | none => r.readClock now
  | some event =>
    match event.extract record with
    | .ok time => (time, r.noteEvent time)
    | .error _ => { r with fallbacks := r.fallbacks + 1 }.readClock now

/-! ## Firing -/

/-- The batch of a window with these groups. -/
def batch (r : WindowedRun) (bounds : Bounds) (groups : Groups Group) : Batch :=
  ⟨r.plan.finish (groups.filterMap fun row => r.plan.groupRow? r.substitute bounds row.2),
    some bounds⟩

/-- A closed window fires, unless it has no groups. -/
def fireOne (r : WindowedRun) (w : Window) : List Batch × WindowedRun :=
  match r.arena.groups w.id with
  | [] => ([], r)
  | groups =>
    ([r.batch w.bounds groups],
      { r with arena := r.arena.erase w.id, fired := r.fired + 1 })

/-- Closed windows fire one after the other. -/
def fire (r : WindowedRun) : List Window → List Batch × WindowedRun
  | [] => ([], r)
  | w :: rest =>
    let (batches, r) := r.fireOne w
    let (more, r) := r.fire rest
    (batches ++ more, r)

/-- Some windows closed and fire, and the others stay open. -/
def settle (r : WindowedRun) (c : List Window × OpenWindows) : List Batch × WindowedRun :=
  { r with windows := c.2 }.fire c.1

/-- The windows whose end a time has reached fire. -/
def fireDue (r : WindowedRun) (now : Int64) : List Batch × WindowedRun :=
  r.settle (r.windows.closeDue now)

/-- The windows that are full fire. -/
def fireReady (r : WindowedRun) : List Batch × WindowedRun :=
  r.settle r.windows.takeReady

/-! ## Records -/

/-- The group of a record in a window, which is a new one for the first record. -/
def groupFor (r : WindowedRun) (record : Record) (key : GroupKey) (w : Window) :
    Except QueryError Group :=
  match (r.arena.groups w.id).get? key with
  | some group => .ok group
  | none => r.plan.newGroup record

/-- A record is folded into its group in one window. -/
def fold (r : WindowedRun) (record : Record) (key : GroupKey) (contributions : List Value)
    (w : Window) : Except QueryError WindowedRun := do
  let group ← r.groupFor record key w
  let groups := (r.arena.groups w.id).insert key (group.add contributions)
  return { r with arena := r.arena.set w.id groups }

/-- The watermark has passed one of the windows. -/
def isLate (r : WindowedRun) (windows : List Window) : Bool :=
  match r.watermark with
  | some mark => r.windows.isTimeBased && windows.any fun w => w.bounds.stop ≤ mark
  | none => false

/-- A record for windows that the watermark has passed is counted. -/
def noteLate (r : WindowedRun) (windows : List Window) : WindowedRun :=
  if r.isLate windows then { r with late := r.late + 1 } else r

/-- The time that windows have to be open for, after a record of the given time. -/
def horizon (r : WindowedRun) (time : Int64) : Option Int64 :=
  if r.hasEventTime then r.watermark else some time

/-- The windows fire whose end the horizon has reached. -/
def fireOverdue (r : WindowedRun) (time : Int64) : List Batch × WindowedRun :=
  match r.horizon time with
  | none => ([], r)
  | some horizon => r.fireDue horizon

/-- A record that passed the condition arrives while the clock shows `now`. -/
def process (r : WindowedRun) (now : Int64) (record : Record) :
    Except QueryError (List Batch × WindowedRun) := do
  let key := r.plan.groupKey record
  let contributions := r.plan.contributions record
  let (time, r) := r.recordTime now record
  let (assignment, windows) := r.windows.assign time key
  let (ended, r) := r.settle (assignment.closed, windows)
  let r ← assignment.windows.foldlM (fun r w => r.fold record key contributions w)
    (r.noteLate assignment.windows)
  let (full, r) := r.fireReady
  let (due, r) := r.fireOverdue time
  return (ended ++ full ++ due, r)

/-! ## Without a record -/

/-- The windows fire whose end is reached. -/
def poll (r : WindowedRun) (now : Int64) : List Batch × WindowedRun :=
  if r.hasEventTime then
    match r.watermark with
    | some mark => r.fireDue mark
    | none => ([], r)
  else
    let (time, r) := r.readClock now
    r.fireDue time

/-- Every window fires. -/
def trigger (r : WindowedRun) : List Batch × WindowedRun :=
  r.settle r.windows.closeAll

/-- Every window is dropped; their number. -/
def discard (r : WindowedRun) : Nat × WindowedRun :=
  let (closed, windows) := r.windows.closeAll
  (closed.length, { r with windows, arena := [] })

/-- Numbers about the windows. -/
def stats (r : WindowedRun) : WindowStats :=
  ⟨r.windows.count, r.fired, r.late, r.fallbacks, r.watermark⟩

end WindowedRun

end StreamSql
