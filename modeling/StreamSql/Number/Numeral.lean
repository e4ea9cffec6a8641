/-
  Reading numerals.

  * `readWord? s`: an optional sign and decimal digits, within a signed 64-bit word;
  * `readNatural? s`: an optional `+` and decimal digits, within an unsigned 64-bit word;
  * `readFloat? s`: an optional sign, then `inf`, `infinity` or `nan` in any case, or
    decimal digits with an optional point and an optional exponent; the result is the
    float nearest to the exact decimal.

  Nothing else may stand in the text: no blanks, no separators.
-/
import StreamSql.Number.Shortest
import StreamSql.Text.Case

namespace StreamSql.Numeral

/-- The value of a run of decimal digits. -/
def ofDigits (cs : List Char) : Nat :=
  cs.foldl (fun n c => 10 * n + (c.toNat - '0'.toNat)) 0

/-- The value of a text that consists of at least one decimal digit. -/
def natural? (cs : List Char) : Option Nat :=
  if cs ≠ [] ∧ cs.all Char.isDigit then some (ofDigits cs) else none

/-- The sign in front, negative or not, and the rest. -/
def splitSign : List Char → Bool × List Char
  | '-' :: rest => (true, rest)
  | '+' :: rest => (false, rest)
  | cs => (false, cs)

/-- A signed integer within a word. -/
def readWord? (s : String) : Option Int64 :=
  let (negative, digits) := splitSign s.toList
  (natural? digits).bind fun n => Word.ofInt? (if negative then -(n : Int) else n)

/-- A natural number below `2^64`. -/
def readNatural? (s : String) : Option Nat :=
  let digits := match s.toList with
    | '+' :: rest => rest
    | cs => cs
  (natural? digits).bind fun n => if n < Word.size then some n else none

/-- The float nearest to `digits · 10^exponent`.  Values far outside the range of floats
    are settled by their magnitude. -/
def nearestFloat (d : Decimal) : Double :=
  if d.digits = 0 then
    0.0
  else
    let top := d.exponent + (Shortest.digitCount d.digits : Int)
    if top > 310 then .infinite false
    else if top < -330 then 0.0
    else OfScientific.ofScientific d.digits (d.exponent < 0) d.exponent.natAbs

/-- The exponent part: nothing, or `e`, an optional sign and digits. -/
def exponent? : List Char → Option Int
  | [] => some 0
  | c :: rest =>
    if c = 'e' ∨ c = 'E' then
      let (negative, digits) := splitSign rest
      (natural? digits).map fun n => if negative then -(n : Int) else n
    else
      none

/-- Digits with an optional point and an optional exponent. -/
def decimal? (cs : List Char) : Option Decimal :=
  let whole := cs.takeWhile Char.isDigit
  let (fraction, rest) := match cs.dropWhile Char.isDigit with
    | '.' :: r => (r.takeWhile Char.isDigit, r.dropWhile Char.isDigit)
    | r => ([], r)
  if whole = [] ∧ fraction = [] then
    none
  else
    (exponent? rest).map fun e => ⟨ofDigits (whole ++ fraction), e - fraction.length⟩

/-- The magnitude of a float: a word for a special value, or a decimal. -/
def magnitude? (cs : List Char) : Option Double :=
  let word := Text.foldAscii (String.ofList cs)
  if word = "inf" ∨ word = "infinity" then some (.infinite false)
  else if word = "nan" then some (.notANumber false)
  else (decimal? cs).map nearestFloat

/-- A float; the sign counts for `nan` as well. -/
def readFloat? (s : String) : Option Double :=
  let (negative, rest) := splitSign s.toList
  (magnitude? rest).map fun x => if negative then -x else x

end StreamSql.Numeral
