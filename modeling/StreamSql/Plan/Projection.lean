/-
  The rows that a plan makes.

  * `Plan.project`: the row of a record, or of a group whose results the scope holds; a
    column that fails gets the substitute, and of two columns of one name the last counts;
  * `Group`: the first record of a group and its accumulators;
  * `Plan.groupRow?`: the row of a group, if HAVING holds of it;
  * `Plan.finish`: the rows of a batch after DISTINCT and LIMIT, in this order.
-/
import StreamSql.Config
import StreamSql.Plan
import StreamSql.Run.DistinctRows

namespace StreamSql

/-! ## Rows of records -/

namespace Plan

/-- The value of a column. -/
def columnValue (substitute : Substitute) (s : Scope) (e : Compiled) : Value :=
  match e.eval s with
  | .ok v => v
  | .error _ => substitute.value

/-- The row with one output more. -/
def addOutput (substitute : Substitute) (s : Scope) (row : Row) : Output → Row
  | .wildcard => s.record.fields.foldl (fun row field => row.insert field.1 field.2) row
  | .column name e => row.insert name (columnValue substitute s e)

/-- The row of what the scope holds. -/
def project (p : Plan) (substitute : Substitute) (s : Scope) : Row :=
  p.outputs.foldl (addOutput substitute s) []

end Plan

/-! ## Groups -/

/-- A group of records. -/
structure Group where
  /-- the first record, from which columns are read that are not aggregated -/
  sample : Record
  /-- one accumulator for each slot of the plan -/
  accumulators : List Accumulator

namespace Group

/-- The values of the aggregates. -/
def results (g : Group) : List Value :=
  g.accumulators.map Accumulator.result

/-- The group with one record more, given what it adds to each slot. -/
def add (g : Group) (contributions : List Value) : Group :=
  { g with accumulators := g.accumulators.zipWith Accumulator.offer contributions }

end Group

namespace Plan

/-- The group without records whose first record will be this one. -/
def newGroup (p : Plan) (record : Record) : Except QueryError Group := do
  return ⟨record, ← p.newAccumulators⟩

/-- What the columns of a group can see. -/
def groupScope (p : Plan) (g : Group) (bounds : Bounds) : Scope :=
  { record := g.sample, registry := p.registry, aggregates := g.results, window := bounds }

/-- HAVING holds of a row; it sees the row first, and does not hold where it fails. -/
def keeps (p : Plan) (s : Scope) (row : Row) : Bool :=
  match p.having with
  | none => true
  | some having =>
    match having.holds { s with aliases := row } with
    | .ok b => b
    | .error _ => false

/-- The row of a group, if HAVING holds of it. -/
def groupRow? (p : Plan) (substitute : Substitute) (bounds : Bounds) (g : Group) :
    Option Row :=
  let s := p.groupScope g bounds
  let row := p.project substitute s
  if p.keeps s row then some row else none

/-- The rows of a batch after DISTINCT and LIMIT. -/
def finish (p : Plan) (rows : List Row) : List Row :=
  let rows := if p.query.distinct then DistinctRows.firsts rows else rows
  match p.query.limit with
  | some n => rows.take n
  | none => rows

end Plan

end StreamSql
