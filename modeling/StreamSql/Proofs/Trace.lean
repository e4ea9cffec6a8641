/-
  What a query answers, call by call.

  * `Answer`: what one call gives back, with the numbers about the windows after it;
  * `Run.respond`, `Run.trace`: the answer to one call and those to a history of calls;
  * `trace_cons_ok`: a trace starts with the answer to the first call.
-/
import StreamSql.Proofs.History

namespace StreamSql

/-- What one call gives back. -/
structure Answer where
  /-- what became of the record, if one arrived -/
  outcome : Option Outcome := none
  batches : List Batch := []
  /-- the number of windows that were dropped -/
  dropped : Nat := 0
  /-- the numbers about the windows after the call -/
  stats : Option WindowStats := none

/-- All rows of the batches. -/
def Answer.rows (a : Answer) : List Row :=
  a.batches.flatMap Batch.rows

/-- The record that arrives. -/
def Event.record? : Event → Option Record
  | .arrival _ record => some record
  | .poll _ | .trigger | .discard => none

namespace Run

/-- The answer to one call. -/
def respond (r : Run) : Event → Except QueryError (Answer × Run)
  | .arrival now record => do
    let (processed, r) ← r.process now record
    return ({ outcome := processed.outcome, batches := processed.batches, stats := r.stats? }, r)
  | .poll now =>
    let (batches, r) := r.poll now
    .ok ({ batches, stats := r.stats? }, r)
  | .trigger =>
    let (batches, r) := r.trigger
    .ok ({ batches, stats := r.stats? }, r)
  | .discard =>
    let (dropped, r) := r.discard
    .ok ({ dropped, stats := r.stats? }, r)

/-- The answers to one call after the other. -/
def trace (r : Run) : List Event → Except QueryError (List Answer × Run)
  | [] => .ok ([], r)
  | e :: rest => do
    let (answer, r) ← r.respond e
    let (more, r) ← r.trace rest
    return (answer :: more, r)

theorem trace_cons_ok {r s t : Run} {e : Event} {rest : List Event} {answer : Answer}
    {more : List Answer} (h : r.respond e = .ok (answer, s)) (h' : s.trace rest = .ok (more, t)) :
    r.trace (e :: rest) = .ok (answer :: more, t) := by
  simp only [trace, h, h', bind, Except.bind, pure, Except.pure]

end Run

end StreamSql
