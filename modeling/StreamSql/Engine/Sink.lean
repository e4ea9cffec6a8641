/-
  Sinks, and what they are given.

  Every batch is given to all sinks, one after the other.  A sink that panics keeps no batch from
  the others; that it panics is all that the engine notices of it.  What is given to a recorded
  sink is shown; sinks of this kind are numbered from zero in the order in which they were added.
-/
import StreamSql.Record

namespace StreamSql

/-- A consumer of batches. -/
structure Sink where
  /-- what it is given is shown -/
  recorded : Bool
  /-- it panics on a batch in front of which so many others were delivered -/
  panics : Nat → Batch → Bool

namespace Sink

/-- A recorded sink that takes every batch. -/
def collecting : Sink :=
  ⟨true, fun _ _ => false⟩

/-- A sink that fails on every batch. -/
def panicking : Sink :=
  ⟨false, fun _ _ => true⟩

/-- The number of recorded sinks. -/
def recorders (sinks : List Sink) : Nat :=
  sinks.countP recorded

/-- The number of sinks that panic on a batch. -/
def panickers (sinks : List Sink) (before : Nat) (batch : Batch) : Nat :=
  sinks.countP fun s => s.panics before batch

end Sink

/-- A batch given to a recorded sink. -/
structure Delivery where
  sink : Nat
  batch : Batch

namespace Delivery

/-- A batch given to every recorded sink in turn. -/
def toAll (sinks : List Sink) (batch : Batch) : List Delivery :=
  (List.range (Sink.recorders sinks)).map fun sink => ⟨sink, batch⟩

end Delivery

end StreamSql
