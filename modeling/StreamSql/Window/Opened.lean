/-
  The open windows of a query, whatever its policy.

  * `OpenWindows.ofSpec spec`: no window is open yet;
  * `assign`: the arrival of a record of a group at a time;
  * `takeReady`: the windows that became full;
  * `closeDue`: the windows whose end a time has reached;
  * `closeAll`: every window.

  Closed windows are returned in the order in which they fire.
-/
import StreamSql.Window.Aligned
import StreamSql.Window.Counting
import StreamSql.Window.Session
import StreamSql.Window.Spec

namespace StreamSql

/-- The open windows of a query. -/
inductive OpenWindows where
  | aligned (windows : AlignedWindows)
  | counting (windows : CountingWindows)
  | session (windows : SessionWindows)

namespace OpenWindows

/-- No window of the policy is open. -/
def ofSpec : WindowSpec → OpenWindows
  | .tumbling size => aligned { grid := .tumbling (.ofDuration size) }
  | .sliding size slide => aligned { grid := .sliding (.ofDuration size) (.ofDuration slide) }
  | .counting count => counting (.ofCapacity count)
  | .session gap => session { gap := .ofDuration gap }

/-- The name of the policy. -/
def typeName : OpenWindows → String
  | aligned w =>
    match w.grid with
    | .tumbling _ => "TUMBLING"
    | .sliding _ _ => "SLIDING"
  | counting _ => "COUNTING"
  | session _ => "SESSION"

/-- The windows close with time, not with the number of their records. -/
def isTimeBased : OpenWindows → Bool
  | counting _ => false
  | _ => true

/-- A record of a group arrives at a time. -/
def assign (w : OpenWindows) (time : Int64) (key : GroupKey) : Assignment × OpenWindows :=
  match w with
  | aligned w => let (a, w) := w.assign time; (a, aligned w)
  | counting w => let (a, w) := w.assign time key; (a, counting w)
  | session w => let (a, w) := w.assign time key; (a, session w)

/-- The windows that became full are taken. -/
def takeReady (w : OpenWindows) : List Window × OpenWindows :=
  match w with
  | counting w => let (closed, w) := w.takeReady; (closed, counting w)
  | w => ([], w)

/-- The windows whose end is reached close; counting windows do not depend on the time. -/
def closeDue (w : OpenWindows) (now : Int64) : List Window × OpenWindows :=
  match w with
  | aligned w => let (closed, w) := w.closeDue now; (closed, aligned w)
  | counting w => ([], counting w)
  | session w => let (closed, w) := w.closeDue now; (closed, session w)

/-- Every window closes. -/
def closeAll (w : OpenWindows) : List Window × OpenWindows :=
  match w with
  | aligned w => let (closed, w) := w.closeAll; (closed, aligned w)
  | counting w => let (closed, w) := w.closeAll; (closed, counting w)
  | session w => let (closed, w) := w.closeAll; (closed, session w)

/-- The windows that take records. -/
def windows : OpenWindows → List Window
  | aligned w => w.opened
  | counting w => w.opened.map fun row => row.2.window
  | session w => w.opened.map fun row => row.2.window w.gap

/-- The number of windows that take records. -/
def count (w : OpenWindows) : Nat :=
  w.windows.length

end OpenWindows

end StreamSql
