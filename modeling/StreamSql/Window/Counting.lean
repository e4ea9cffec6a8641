/-
  Windows that hold a fixed number of records of one group.

  Every group has a window of its own, which closes as soon as it is full.  It reaches from
  its earliest record to just after its latest one.  The windows are found by their groups; the
  groups are also listed in the order in which their windows were opened.
-/
import StreamSql.Window.Assignment
import StreamSql.Window.Groups

namespace StreamSql

/-- The records counted by one window. -/
structure Tally where
  id : Nat
  count : Nat
  earliest : Int64
  latest : Int64

namespace Tally

/-- The window of the counted records. -/
def window (t : Tally) : Window :=
  ⟨t.id, t.earliest, Word.addSat t.latest 1⟩

/-- One record more. -/
def add (t : Tally) (time : Int64) : Tally :=
  { t with count := t.count + 1, earliest := min t.earliest time, latest := max t.latest time }

end Tally

/-- The counting windows of all groups. -/
structure CountingWindows where
  /-- the number of records that fills a window -/
  capacity : Nat
  /-- the windows that are not full, by group -/
  opened : Groups Tally := []
  /-- the groups of these windows, in the order in which the windows were opened -/
  order : GroupOrder := []
  /-- the windows that are full and have not been taken -/
  ready : List Window := []
  next : Nat := 0

namespace CountingWindows

/-- Counting windows of a given size, which is at least one. -/
def ofCapacity (capacity : Nat) : CountingWindows :=
  { capacity := max 1 capacity }

/-- A group without a window opens one, which is empty and has the next number. -/
def openFor (w : CountingWindows) (time : Int64) (key : GroupKey) : CountingWindows :=
  match w.opened.get? key with
  | some _ => w
  | none =>
    { w with
      opened := w.opened.insert key ⟨w.next, 0, time, time⟩
      order := w.order ++ [key]
      next := w.next + 1 }

/-- The window of a group is full. -/
def complete (w : CountingWindows) (key : GroupKey) : CountingWindows :=
  match w.opened.get? key with
  | some t =>
    { w with
      opened := w.opened.erase key
      order := w.order.without key
      ready := w.ready ++ [t.window] }
  | none => w

/-- A record counts in the window of its group. -/
def assign (w : CountingWindows) (time : Int64) (key : GroupKey) :
    Assignment × CountingWindows :=
  let w := w.openFor time key
  match w.opened.get? key with
  | some t =>
    let t := t.add time
    let w := { w with opened := w.opened.insert key t }
    (⟨[t.window], []⟩, if w.capacity ≤ t.count then w.complete key else w)
  | none => (⟨[], []⟩, w)

/-- The full windows are taken. -/
def takeReady (w : CountingWindows) : List Window × CountingWindows :=
  (w.ready, { w with ready := [] })

/-- The full windows and then all others close, in the order in which they were opened. -/
def closeAll (w : CountingWindows) : List Window × CountingWindows :=
  let (closed, order, opened) := w.opened.takeWhere (fun _ => true) w.order
  (w.ready ++ closed.map Tally.window, { w with opened, order, ready := [] })

end CountingWindows

end StreamSql
