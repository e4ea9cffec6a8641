/-
  Bounds of windows in milliseconds, and lengths of time that are at least one of them.

  * `Bounds`: the half-open interval from `start` up to `stop`;
  * `Span`: a positive number of milliseconds; `Span.ofDuration` takes a shorter duration
    for one millisecond and a longer one than a word holds for the greatest word.
-/
import StreamSql.Time.Duration
import StreamSql.Number.Word

namespace StreamSql

/-- The interval from `start` up to, and without, `stop`. -/
structure Bounds where
  start : Int64
  stop : Int64
  deriving DecidableEq, Repr

namespace Bounds

/-- The time lies between the bounds. -/
def contains (b : Bounds) (time : Int64) : Bool :=
  b.start ≤ time && time < b.stop

end Bounds

/-- A positive number of milliseconds. -/
structure Span where
  millis : Int64
  positive : 0 < millis.toInt

namespace Span

/-- The whole milliseconds of a duration, at least one. -/
def ofDuration (d : Duration) : Span :=
  ⟨Word.nearest (max 1 d.millis), by
    rw [Word.toInt_nearest]
    simp only [Word.least, Word.greatest]
    omega⟩

/-- The time one span later. -/
def after (s : Span) (time : Int64) : Int64 :=
  Word.addSat time s.millis

/-- The time one span earlier. -/
def before (s : Span) (time : Int64) : Int64 :=
  Word.subSat time s.millis

/-- The number of whole spans up to a time; negative before time zero. -/
def index (s : Span) (time : Int64) : Int :=
  time.toInt / s.millis.toInt

/-- The time at which a span begins. -/
def multiple (s : Span) (k : Int) : Int64 :=
  Word.nearest (k * s.millis.toInt)

end Span

end StreamSql
