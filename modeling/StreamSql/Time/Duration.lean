/-
  Durations in nanoseconds.

  * `Duration.parse text`: a bare number counts seconds and is taken to the nearest
    nanosecond, a half going to the even neighbour; otherwise the text is a sequence of
    parts, each a number and a unit, whose lengths are added up;
  * `Duration.text`: the duration in the largest of s, ms, µs and ns that it reaches, with
    the fraction without trailing zeros;
  * `Duration.millis`: the whole milliseconds.
-/
import StreamSql.Error
import StreamSql.Number.FloatText
import StreamSql.Number.Numeral
import StreamSql.Text.Blank

namespace StreamSql

/-- A length of time in nanoseconds. -/
structure Duration where
  nanos : Nat
  deriving DecidableEq, Repr

namespace Duration

instance : Add Duration := ⟨fun a b => ⟨a.nanos + b.nanos⟩⟩

@[simp]
theorem nanos_add (a b : Duration) : (a + b).nanos = a.nanos + b.nanos := rfl

/-- The whole milliseconds of a duration. -/
def millis (d : Duration) : Nat := d.nanos / 1000000

/-! ## Reading -/

/-- The nearest natural number to `n / d`, a half going to the even neighbour. -/
def nearestEven (n d : Nat) : Nat :=
  let q := n / d
  let r := n % d
  if 2 * r < d ∨ (2 * r = d ∧ q % 2 = 0) then q else q + 1

/-- The seconds of a non-negative finite value. -/
def ofSeconds (p : FloatParts) : Duration :=
  ⟨nearestEven (p.numerator * 1000000000) p.denominator⟩

/-- The nanoseconds in a unit. -/
def unitNanos? (unit : String) : Option Double :=
  match Text.lower unit with
  | "ns" => some 1.0
  | "us" | "µs" | "μs" => some 1e3
  | "ms" => some 1e6
  | "s" | "sec" | "secs" => some 1e9
  | "m" | "min" | "mins" => some 60e9
  | "h" | "hr" | "hrs" => some 3600e9
  | "d" => some 86400e9
  | _ => none

/-- A float as a whole number of nanoseconds, a half going up, at most `2^64 - 1`. -/
def wholeNanos (x : Double) : Nat :=
  match FloatView.of x with
  | .finite p => if p.negative then 0 else min p.roundedMagnitude (Word.size - 1)
  | .infinite false => Word.size - 1
  | _ => 0

/-- A character of a number in a duration. -/
def isAmount (c : Char) : Bool :=
  c.isDigit || c = '.'

/-- The duration of one part. -/
def partDuration (text : String) (number unit : List Char) : Except ParseFault Duration :=
  match Numeral.readFloat? (String.ofList number) with
  | none => .error (.invalidDuration text)
  | some amount =>
    match unitNanos? (String.ofList unit) with
    | none => .error (.unknownDurationUnit (String.ofList unit) text)
    | some nanos => .ok ⟨wholeNanos (amount * nanos)⟩

/-- The sum of the parts; `text` is the whole duration, for messages. -/
def parseParts (text : String) : List Char → Except ParseFault Duration
  | [] => .ok ⟨0⟩
  | c :: cs =>
    if isAmount c then do
      let behind := cs.dropWhile isAmount
      let part ← partDuration text (c :: cs.takeWhile isAmount)
        (behind.takeWhile (!isAmount ·))
      let total ← parseParts text (behind.dropWhile (!isAmount ·))
      return part + total
    else
      .error (.invalidDuration text)
termination_by cs => cs.length
decreasing_by
  have h₁ := (List.dropWhile_sublist (!isAmount ·) (l := cs.dropWhile isAmount)).length_le
  have h₂ := (List.dropWhile_sublist isAmount (l := cs)).length_le
  simp only [List.length_cons]
  omega

/-- The duration that a text spells. -/
def read (text : String) : Except ParseFault Duration :=
  let text := Text.trim text
  if text = "" then
    .error .emptyDuration
  else
    match Numeral.readFloat? text with
    | some seconds =>
      match FloatView.of seconds with
      | .finite p => if seconds < 0.0 then .error (.invalidDuration text) else .ok (ofSeconds p)
      | _ => .error (.invalidDuration text)
    | none => parseParts text text.toList

/-- The duration that a text spells; its faults have no place. -/
def parse (text : String) : Except QueryError Duration :=
  (read text).mapError fun fault => .parse fault none

/-! ## Text -/

/-- `whole` units and `part` of `10^places` parts of one. -/
def withFraction (whole part places : Nat) (unit : String) : String :=
  let digits := Nat.toDigits 10 part
  let padded := List.replicate (places - digits.length) '0' ++ digits
  let fraction := (padded.reverse.dropWhile (· = '0')).reverse
  toString whole ++ (if part = 0 then "" else "." ++ String.ofList fraction) ++ unit

/-- The duration in its largest unit. -/
def text (d : Duration) : String :=
  let n := d.nanos
  if n ≥ 1000000000 then withFraction (n / 1000000000) (n % 1000000000) 9 "s"
  else if n ≥ 1000000 then withFraction (n / 1000000) (n % 1000000) 6 "ms"
  else if n ≥ 1000 then withFraction (n / 1000) (n % 1000) 3 "µs"
  else toString n ++ "ns"

end Duration

end StreamSql
