/-
  A query without windows at work: every record makes a row of its own.

  A row that DISTINCT has met before is dropped, and so is every record after LIMIT rows.
  Dropped duplicates do not count towards LIMIT.
-/
import StreamSql.Plan.Projection

namespace StreamSql

/-- What became of a record. -/
inductive Outcome where
  /-- the condition does not hold -/
  | filtered
  /-- it made a row -/
  | projected
  /-- it was folded into windows -/
  | windowed
  /-- its row was met before -/
  | duplicate
  /-- the rows of LIMIT were made before -/
  | limitReached
  deriving DecidableEq, Repr

/-- What became of a record, and the batches that its arrival made. -/
structure Processed where
  outcome : Outcome
  batches : List Batch := []

/-- A query without windows at work. -/
structure RowRun where
  plan : Plan
  substitute : Substitute
  /-- the number of rows made -/
  emitted : Nat := 0
  /-- the rows made, if they have to be distinct -/
  distinct : DistinctRows := {}

namespace RowRun

/-- The rows of LIMIT have been made. -/
def isExhausted (r : RowRun) : Bool :=
  match r.plan.query.limit with
  | some n => n ≤ r.emitted
  | none => false

/-- The rows with one more, if it may be made. -/
def admit? (r : RowRun) (row : Row) : Option RowRun :=
  if r.plan.query.distinct then
    (r.distinct.insert? row).map fun distinct => { r with distinct, emitted := r.emitted + 1 }
  else
    some { r with emitted := r.emitted + 1 }

/-- A record that passed the condition arrives. -/
def process (r : RowRun) (record : Record) : Processed × RowRun :=
  if r.isExhausted then (⟨.limitReached, []⟩, r)
  else
    let row := r.plan.project r.substitute (r.plan.scope record)
    match r.admit? row with
    | some r => (⟨.projected, [⟨[row], none⟩]⟩, r)
    | none => (⟨.duplicate, []⟩, r)

end RowRun

end StreamSql
