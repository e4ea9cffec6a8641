/-
  Calendar dates and times of day, and the texts that spell them.

  * `CalendarReader`: what reads such texts;
  * `Moment`: a date of the Gregorian calendar with a time of day; `Moment.nanos?` counts the
    nanoseconds from the beginning of 1970, if the fields are in range;
  * `Moment.readRfc3339`: `2024-05-01T12:00:00.5+02:00`, with fixed widths and an offset;
  * `Moment.readPlain separator`: `2024-05-01 12:00:00.5` without an offset; fields may be shorter
    than usual and follow blanks, and the year may carry a sign;
  * `Moment.reader`: the reader of these definitions.

  A second of 60 is accepted and is the first second of the next minute.
-/
import StreamSql.Number.Numeral
import StreamSql.Text.Blank

namespace StreamSql

/-- What stands between a date and a time. -/
inductive DateSeparator where
  | blanks | letter
  deriving DecidableEq, Repr

/-- What reads the texts of dates and times. -/
structure CalendarReader where
  Time : Type
  rfc3339? : String → Option Time
  /-- the time of a text without an offset -/
  plain? : DateSeparator → String → Option Time
  /-- the milliseconds since the beginning of 1970 -/
  millis : Time → Int64

/-- The time of a text in one of the accepted forms. -/
def CalendarReader.read? (reader : CalendarReader) (text : String) : Option reader.Time :=
  (reader.rfc3339? text).or ((reader.plain? .blanks text).or (reader.plain? .letter text))

/-- A date and a time of day. -/
structure Moment where
  year : Int
  month : Nat
  day : Nat
  hour : Nat
  minute : Nat
  second : Nat
  nanos : Nat
  deriving Repr

namespace Moment

/-- Leap years. -/
def isLeap (year : Int) : Bool :=
  year % 4 = 0 && (year % 100 ≠ 0 || year % 400 = 0)

/-- The number of days of a month. -/
def daysInMonth (year : Int) : Nat → Nat
  | 2 => if isLeap year then 29 else 28
  | 4 | 6 | 9 | 11 => 30
  | _ => 31

/-- The days from the beginning of 1970 to a date.  Years are counted from March, so that the
    leap day is the last of its year. -/
def daysFromEpoch (year : Int) (month day : Nat) : Int :=
  let y := if month ≤ 2 then year - 1 else year
  let monthFromMarch := (month + 9) % 12
  let dayOfYear : Int := (153 * monthFromMarch + 2) / 5 + (day - 1)
  365 * y + y / 4 - y / 100 + y / 400 + dayOfYear - 719468

/-- The fields are those of a date and a time of day. -/
def inRange (m : Moment) : Bool :=
  -262143 ≤ m.year && m.year ≤ 262142 && 1 ≤ m.month && m.month ≤ 12 && 1 ≤ m.day
    && m.day ≤ daysInMonth m.year m.month && m.hour ≤ 23 && m.minute ≤ 59 && m.second ≤ 60

/-- The nanoseconds from the beginning of 1970. -/
def nanos? (m : Moment) : Option Int :=
  if m.inRange then
    let minutes : Int := m.hour * 60 + m.minute
    some (((daysFromEpoch m.year m.month m.day * 1440 + minutes) * 60 + m.second) * 1000000000
      + m.nanos)
  else
    none

/-! ## Reading -/

/-- A number of at least `least` and at most `most` digits in front. -/
def readDigits (least most : Nat) (cs : List Char) : Option (Nat × List Char) :=
  let digits := (cs.take most).takeWhile Char.isDigit
  if digits.length < least ∨ digits = [] then none
  else some (Numeral.ofDigits digits, cs.drop digits.length)

/-- The characters behind this one. -/
def readChar (c : Char) : List Char → Option (List Char)
  | d :: rest => if c = d then some rest else none
  | [] => none

/-- The nanoseconds of the digits behind a point, of which nine count, if there is a point. -/
def readFraction : List Char → Option (Nat × List Char)
  | '.' :: rest =>
    let digits := rest.takeWhile Char.isDigit
    if digits = [] then none
    else
      let counted := digits.take 9
      some (Numeral.ofDigits counted * Nat.pow 10 (9 - counted.length), rest.drop digits.length)
  | cs => some (0, cs)

/-- The seconds by which a local time is ahead. -/
def readOffset : List Char → Option (Int × List Char)
  | [] => none
  | c :: rest =>
    if c = 'Z' ∨ c = 'z' then some (0, rest)
    else if c = '+' ∨ c = '-' ∨ c = '−' then do
      let (hours, rest) ← readDigits 2 2 rest
      let rest ← readChar ':' rest
      let (minutes, rest) ← readDigits 2 2 rest
      if hours ≤ 23 ∧ minutes ≤ 59 then
        let seconds : Int := (hours * 60 + minutes) * 60
        return (if c = '+' then seconds else -seconds, rest)
      else
        none
    else
      none

/-- The nanoseconds of a date and time with an offset. -/
def readRfc3339 (text : String) : Option Int := do
  let (year, cs) ← readDigits 4 4 text.toList
  let cs ← readChar '-' cs
  let (month, cs) ← readDigits 2 2 cs
  let cs ← readChar '-' cs
  let (day, cs) ← readDigits 2 2 cs
  let cs ← (readChar 'T' cs).or ((readChar 't' cs).or (readChar ' ' cs))
  let (hour, cs) ← readDigits 2 2 cs
  let cs ← readChar ':' cs
  let (minute, cs) ← readDigits 2 2 cs
  let cs ← readChar ':' cs
  let (second, cs) ← readDigits 2 2 cs
  let (nanos, cs) ← readFraction cs
  let (offset, cs) ← readOffset cs
  let nanos ← nanos? ⟨year, month, day, hour, minute, second, nanos⟩
  if cs = [] then return nanos - offset * 1000000000 else none

/-- A field of at most two digits behind optional blanks. -/
def readField (cs : List Char) : Option (Nat × List Char) :=
  readDigits 1 2 (cs.dropWhile Text.isBlank)

/-- A year of at most four digits, or of any number of digits behind a sign. -/
def readYear (cs : List Char) : Option (Int × List Char) :=
  match cs.dropWhile Text.isBlank with
  | '-' :: rest => (readDigits 1 rest.length rest).map fun (n, cs) => (-(n : Int), cs)
  | '+' :: rest => (readDigits 1 rest.length rest).map fun (n, cs) => ((n : Int), cs)
  | rest => (readDigits 1 4 rest).map fun (n, cs) => ((n : Int), cs)

/-- The characters behind the separator. -/
def skipSeparator (separator : DateSeparator) (cs : List Char) : Option (List Char) :=
  match separator with
  | .blanks => some (cs.dropWhile Text.isBlank)
  | .letter => readChar 'T' cs

/-- The nanoseconds of a date and time without an offset. -/
def readPlain (separator : DateSeparator) (text : String) : Option Int := do
  let (year, cs) ← readYear text.toList
  let cs ← readChar '-' cs
  let (month, cs) ← readField cs
  let cs ← readChar '-' cs
  let (day, cs) ← readField cs
  let cs ← skipSeparator separator cs
  let (hour, cs) ← readField cs
  let cs ← readChar ':' cs
  let (minute, cs) ← readField cs
  let cs ← readChar ':' cs
  let (second, cs) ← readField cs
  let (nanos, cs) ← readFraction cs
  let nanos ← nanos? ⟨year, month, day, hour, minute, second, nanos⟩
  if cs = [] then return nanos else none

/-- The reader of these definitions. -/
def reader : CalendarReader where
  Time := Int
  rfc3339? := readRfc3339
  plain? := readPlain
  millis nanos := Word.nearest (nanos / 1000000)

end Moment

end StreamSql
