/-
  Event times of records.

  A query names the field that holds the event time and the unit of its numbers
  (`EventTime.ofQuery`).  `EventTime.extract` reads it as milliseconds: a number, or a text
  that spells a number, counts in the unit and is truncated; any other text has to be a
  date and time, which a `CalendarReader` reads (`EventTime.extractBy`).
-/
import StreamSql.Query
import StreamSql.Record
import StreamSql.Time.Calendar
import StreamSql.Time.Unit

namespace StreamSql

/-- Where the event time of a record stands. -/
structure EventTime where
  field : String
  unit : TimeUnit
  deriving DecidableEq, Repr

namespace EventTime

/-- The unit that a query names; milliseconds if it names none. -/
def unitOf (q : Query) : Except QueryError TimeUnit :=
  match q.timeUnit with
  | none => .ok .millisecond
  | some code =>
    match TimeUnit.parse? code with
    | some unit => .ok unit
    | none => .error (.validation (.unknownTimeUnit code))

/-- The event time that a query names, if it names one. -/
def ofQuery (q : Query) : Except QueryError (Option EventTime) := do
  let unit ← unitOf q
  return q.timestampField.map fun field => ⟨field, unit⟩

/-- An amount in the unit as milliseconds. -/
def ofAmount (t : EventTime) (amount : Double) : Int64 :=
  toWord (t.unit.toMillis amount)

/-- The finite number that a text spells. -/
def finite? (text : String) : Option Double :=
  (Numeral.readFloat? text).filter Double.isFinite

/-- The event time that a text spells. -/
def ofTextBy (reader : CalendarReader) (t : EventTime) (text : String) :
    Except QueryError Int64 :=
  let text := Text.trim text
  match finite? text with
  | some amount => .ok (t.ofAmount amount)
  | none =>
    match reader.read? text with
    | some time => .ok (reader.millis time)
    | none => .error (.mismatch (.timestamp t.field) .unparsableText (some text))

/-- The event time of a record in milliseconds, given what reads dates and times. -/
def extractBy (reader : CalendarReader) (t : EventTime) (r : Record) : Except QueryError Int64 :=
  match r.path t.field with
  | .integer n => .ok (t.ofAmount (.ofWord n))
  | .float x =>
    if x.isFinite then .ok (t.ofAmount x)
    else (Value.float x).mismatch (.timestamp t.field)
  | .text s => t.ofTextBy reader s
  | .null => .error (.execution (.timeFieldMissing t.field))
  | v => v.mismatch (.timestamp t.field)

/-- The event time of a record in milliseconds. -/
def extract (t : EventTime) (r : Record) : Except QueryError Int64 :=
  t.extractBy Moment.reader r

end EventTime

end StreamSql
