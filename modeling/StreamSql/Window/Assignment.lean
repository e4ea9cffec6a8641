/-
  Windows and what the arrival of a record does to them.

  Every window has a number of its own.  A record is assigned to windows, and its arrival can
  close others.
-/
import StreamSql.Window.Bounds

namespace StreamSql

/-- A window: its number and its bounds. -/
structure Window where
  id : Nat
  bounds : Bounds
  deriving DecidableEq, Repr

/-- What the arrival of a record does. -/
structure Assignment where
  /-- the windows that the record belongs to -/
  windows : List Window
  /-- the windows that its arrival closed -/
  closed : List Window
  deriving DecidableEq, Repr

end StreamSql
