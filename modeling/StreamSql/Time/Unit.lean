/-
  The units of event times.

  * `TimeUnit.parse? code`: the unit that a code names, in any case;
  * `TimeUnit.toMillis unit x`: an amount in the unit as milliseconds, in float
    arithmetic.
-/
import StreamSql.Number.Double
import StreamSql.Text.Blank
import StreamSql.Text.Case

namespace StreamSql

/-- A unit of time. -/
inductive TimeUnit where
  | nanosecond | microsecond | millisecond | second | minute | hour | day
  deriving DecidableEq, Repr

namespace TimeUnit

/-- The unit that a code names. -/
def parse? (code : String) : Option TimeUnit :=
  match Text.lower (Text.trim code) with
  | "ns" | "nanosecond" | "nanoseconds" => some nanosecond
  | "us" | "µs" | "microsecond" | "microseconds" => some microsecond
  | "ms" | "millisecond" | "milliseconds" => some millisecond
  | "ss" | "s" | "second" | "seconds" => some second
  | "mi" | "m" | "minute" | "minutes" => some minute
  | "hh" | "h" | "hour" | "hours" => some hour
  | "dd" | "d" | "day" | "days" => some day
  | _ => none

/-- An amount in the unit as milliseconds. -/
def toMillis (unit : TimeUnit) (amount : Double) : Double :=
  match unit with
  | nanosecond => amount / 1000000.0
  | microsecond => amount / 1000.0
  | millisecond => amount
  | second => amount * 1000.0
  | minute => amount * 60000.0
  | hour => amount * 3600000.0
  | day => amount * 86400000.0

end TimeUnit

end StreamSql
