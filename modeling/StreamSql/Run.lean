/-
  A query at work.

  A record that does not pass the condition of the query has no effect; where the condition
  fails, it does not hold.  Any other record makes a row of its own, or is folded into
  windows if the query has any.
-/
import StreamSql.Run.Rowwise
import StreamSql.Run.Windowed

namespace StreamSql

/-- A query at work. -/
inductive Run where
  | rows (run : RowRun)
  | windowed (run : WindowedRun)

namespace Run

/-- The query before its first record. -/
def start (plan : Plan) (config : Config) : Run :=
  match plan.window with
  | some spec => windowed (.start plan spec config)
  | none => rows { plan, substitute := config.substitute }

/-- The plan of the query. -/
def plan : Run → Plan
  | rows r => r.plan
  | windowed r => r.plan

/-- The query has windows. -/
def isWindowed : Run → Bool
  | rows _ => false
  | windowed _ => true

/-- The query has windows that close with time. -/
def isTimed : Run → Bool
  | rows _ => false
  | windowed r => r.windows.isTimeBased

/-- A record arrives while the clock shows `now`. -/
def process (r : Run) (now : Int64) (record : Record) : Except QueryError (Processed × Run) :=
  if r.plan.accepts record then
    match r with
    | rows r => let (processed, r) := r.process record; .ok (processed, rows r)
    | windowed r => do
      let (batches, r) ← r.process now record
      return (⟨.windowed, batches⟩, windowed r)
  else
    .ok (⟨.filtered, []⟩, r)

/-- The windows fire whose end is reached. -/
def poll (r : Run) (now : Int64) : List Batch × Run :=
  match r with
  | rows r => ([], rows r)
  | windowed r => let (batches, r) := r.poll now; (batches, windowed r)

/-- Every window fires. -/
def trigger (r : Run) : List Batch × Run :=
  match r with
  | rows r => ([], rows r)
  | windowed r => let (batches, r) := r.trigger; (batches, windowed r)

/-- Every window is dropped; their number. -/
def discard (r : Run) : Nat × Run :=
  match r with
  | rows r => (0, rows r)
  | windowed r => let (count, r) := r.discard; (count, windowed r)

/-- Numbers about the windows, if the query has any. -/
def stats? : Run → Option WindowStats
  | rows _ => none
  | windowed r => some r.stats

end Run

end StreamSql
