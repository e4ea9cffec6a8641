/-
  Windows of activity of one group.

  A session reaches from its earliest record to one gap after its latest.  A record later
  than that closes the session of its group and opens the next; any other record extends it,
  to either side.  A session is due once its end is reached.  The sessions are found by their
  groups; the groups are also listed in the order in which their sessions were opened.
-/
import StreamSql.Window.Assignment
import StreamSql.Window.Groups

namespace StreamSql

/-- An open session. -/
structure Session where
  id : Nat
  earliest : Int64
  latest : Int64

namespace Session

/-- The end of the session, one gap after its latest record. -/
def stop (s : Session) (gap : Span) : Int64 :=
  gap.after s.latest

/-- The window of the session. -/
def window (s : Session) (gap : Span) : Window :=
  ⟨s.id, s.earliest, s.stop gap⟩

/-- The session with one record more. -/
def extend (s : Session) (time : Int64) : Session :=
  { s with earliest := min s.earliest time, latest := max s.latest time }

end Session

/-- The sessions of all groups. -/
structure SessionWindows where
  /-- the silence that ends a session -/
  gap : Span
  /-- the sessions by group -/
  opened : Groups Session := []
  /-- the groups of the sessions, in the order in which the sessions were opened -/
  order : GroupOrder := []
  next : Nat := 0

namespace SessionWindows

/-- The sessions that a test selects close, in the order in which they were opened. -/
def closeWhere (w : SessionWindows) (due : Session → Bool) : List Window × SessionWindows :=
  let (closed, order, opened) := w.opened.takeWhere due w.order
  (closed.map fun s => s.window w.gap, { w with opened, order })

/-- The sessions whose end is reached close. -/
def closeDue (w : SessionWindows) (now : Int64) : List Window × SessionWindows :=
  w.closeWhere fun s => s.stop w.gap ≤ now

/-- All sessions close. -/
def closeAll (w : SessionWindows) : List Window × SessionWindows :=
  w.closeWhere fun _ => true

/-- The session of the group closes if the time is past its end. -/
def expire (w : SessionWindows) (time : Int64) (key : GroupKey) :
    List Window × SessionWindows :=
  match w.opened.get? key with
  | some s =>
    if s.stop w.gap < time then
      ([s.window w.gap],
        { w with opened := w.opened.erase key, order := w.order.without key })
    else
      ([], w)
  | none => ([], w)

/-- A group without a session opens one with the next number. -/
def openFor (w : SessionWindows) (time : Int64) (key : GroupKey) : SessionWindows :=
  match w.opened.get? key with
  | some _ => w
  | none =>
    { w with
      opened := w.opened.insert key ⟨w.next, time, time⟩
      order := w.order ++ [key]
      next := w.next + 1 }

/-- A record joins the open session of its group, or opens one. -/
def join (w : SessionWindows) (time : Int64) (key : GroupKey) : List Window × SessionWindows :=
  let w := w.openFor time key
  match w.opened.get? key with
  | some s =>
    let s := s.extend time
    ([s.window w.gap], { w with opened := w.opened.insert key s })
  | none => ([], w)

/-- What the arrival of a record does to the sessions. -/
def assign (w : SessionWindows) (time : Int64) (key : GroupKey) :
    Assignment × SessionWindows :=
  let (closed, w) := w.expire time key
  let (windows, w) := w.join time key
  (⟨windows, closed⟩, w)

end SessionWindows

end StreamSql
