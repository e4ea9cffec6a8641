/-
  The scalar functions.

  Each takes its arguments already evaluated.  An argument that is NULL makes the result
  NULL, except where the function is about NULLs (COALESCE, NULLIF, CONCAT, GREATEST,
  LEAST).  A number of arguments that a function has no reading for is an error.
-/
import StreamSql.Value.Arith
import StreamSql.Value.Compare

namespace StreamSql.Scalar

/-- The result of a function. -/
abbrev Result := Except QueryError Value

/-- A number of arguments that the function has no reading for. -/
def wrongCount (name : String) (args : List Value) : Result :=
  .error (.execution (.argumentCount name args.length))

/-! ## Arguments -/

/-- A numeric argument. -/
def numericArgument (name : String) (v : Value) : Except QueryError Number :=
  match v.number? with
  | some n => .ok n
  | none => v.mismatch (.numericArgument name)

/-- A text argument. -/
def textArgument (name : String) (v : Value) : Except QueryError String :=
  match v with
  | .text s => .ok s
  | v => v.mismatch (.textArgument name)

/-- An integer argument; a float counts if it is integral. -/
def integerArgument (name : String) (v : Value) : Except QueryError Int64 := do
  match ← numericArgument name v with
  | .integer n => return n
  | .float x =>
    if isIntegral x then return toWord x
    else (Value.float x).mismatch (.integerArgument name)

/-! ## Mathematics -/

/-- The absolute value; it saturates at the greatest word. -/
def absolute : Number → Number
  | .integer n => .integer (Word.nearest n.toInt.natAbs)
  | .float x => .float x.abs

/-- ABS -/
def abs : List Value → Result
  | [.null] => .ok .null
  | [v] => do return (absolute (← numericArgument "ABS" v)).toValue
  | args => wrongCount "ABS" args

/-- A float rounded to a number of places, at most 308 of them to either side. -/
def roundFloat (x : Double) (places : Int) : Double :=
  let scale := powInt 10.0 (max (-308) (min places 308))
  roundHalfAway (x * scale) / scale

/-- The value of ROUND for a number of places. -/
def roundTo (v : Value) (places : Int64) : Result :=
  match v with
  | .null => .ok .null
  | v => do
    match ← numericArgument "ROUND" v with
    | .integer n => return .integer n
    | .float x => return .float (roundFloat x places.toInt)

/-- ROUND -/
def round : List Value → Result
  | [v] => roundTo v 0
  | [_, .null] => .ok .null
  | [v, places] => do roundTo v (← integerArgument "ROUND" places)
  | args => wrongCount "ROUND" args

/-- CEIL and FLOOR, by the integer that they pick. -/
def integral (name : String) (pick : FloatParts → Int) : List Value → Result
  | [.null] => .ok .null
  | [v] => do
    match ← numericArgument name v with
    | .integer n => return .integer n
    | .float x => return .integer (toWordBy pick x)
  | args => wrongCount name args

/-- SQRT -/
def sqrt : List Value → Result
  | [.null] => .ok .null
  | [v] => do
    let x := (← numericArgument "SQRT" v).toDouble
    if x < 0.0 then .error (.execution .negativeRoot) else return .float x.sqrt
  | args => wrongCount "SQRT" args

/-- POWER -/
def power : List Value → Result
  | [.null, _] => .ok .null
  | [_, .null] => .ok .null
  | [base, exponent] => do
    let x := (← numericArgument "POWER" base).toDouble
    let y := (← numericArgument "POWER" exponent).toDouble
    return .float (StreamSql.power x y)
  | args => wrongCount "POWER" args

/-- MOD -/
def mod : List Value → Result
  | [a, b] => a.modulo b
  | args => wrongCount "MOD" args

/-! ## Text -/

/-- A function of one text. -/
def ofText (name : String) (f : String → String) : List Value → Result
  | [.null] => .ok .null
  | [v] => do return .text (f (← textArgument name v))
  | args => wrongCount name args

/-- LENGTH of a text in characters, or of an array. -/
def length : List Value → Result
  | [.null] => .ok .null
  | [.array items] => .ok (.integer (Word.nearest items.length))
  | [v] => do return .integer (Word.nearest (← textArgument "LENGTH" v).length)
  | args => wrongCount "LENGTH" args

/-- CONCAT of the texts of all arguments that are not NULL. -/
def concat (args : List Value) : Result :=
  .ok (.text (String.join ((args.filter (!·.isNull)).map Value.render)))

/-- The text from the position `start`, counted from 1, of at most `count` characters. -/
def slice (s : String) (start : Int) (count : Option Int) : String :=
  let behind := s.toList.drop (max start 1 - 1).toNat
  String.ofList (match count with
    | some n => behind.take n.toNat
    | none => behind)

/-- SUBSTRING -/
def substring (args : List Value) : Result :=
  if args.any Value.isNull then
    .ok .null
  else
    match args with
    | [s, start] => do
      let s ← textArgument "SUBSTRING" s
      let start ← integerArgument "SUBSTRING" start
      return .text (slice s start.toInt none)
    | [s, start, count] => do
      let s ← textArgument "SUBSTRING" s
      let start ← integerArgument "SUBSTRING" start
      let count ← integerArgument "SUBSTRING" count
      return .text (slice s start.toInt (some count.toInt))
    | args => wrongCount "SUBSTRING" args

/-- The characters with every occurrence of `search` replaced, found from the left and not
    overlapping; `skip` characters of an occurrence are still to be passed. -/
def replaceChars (search replacement : List Char) (skip : Nat) : List Char → List Char
  | [] => []
  | c :: rest =>
    match skip with
    | n + 1 => replaceChars search replacement n rest
    | 0 =>
      if search.isPrefixOf (c :: rest) then
        replacement ++ replaceChars search replacement (search.length - 1) rest
      else
        c :: replaceChars search replacement 0 rest

/-- The text with every occurrence of `search` replaced; an empty one occurs around every
    character. -/
def replaceAll (s search replacement : String) : String :=
  if search = "" then
    replacement ++ String.join (s.toList.map fun c => c.toString ++ replacement)
  else
    String.ofList (replaceChars search.toList replacement.toList 0 s.toList)

/-- REPLACE -/
def replace : List Value → Result
  | [s, search, replacement] =>
    if s.isNull || search.isNull || replacement.isNull then
      .ok .null
    else do
      let s ← textArgument "REPLACE" s
      let search ← textArgument "REPLACE" search
      let replacement ← textArgument "REPLACE" replacement
      return .text (replaceAll s search replacement)
  | args => wrongCount "REPLACE" args

/-! ## Choice -/

/-- COALESCE: the first argument that is not NULL. -/
def coalesce (args : List Value) : Result :=
  .ok ((args.find? (!·.isNull)).getD .null)

/-- NULLIF -/
def nullIf : List Value → Result
  | [.null, _] => .ok .null
  | [v, .null] => .ok v
  | [v, other] => .ok (if v.sqlEquals other then .null else v)
  | args => wrongCount "NULLIF" args

/-- The best of the values so far and the next ones; NULL never competes. -/
def bestOf (keep : Ordering) (best : Option Value) : List Value → Result
  | [] => .ok (best.getD .null)
  | v :: rest =>
    if v.isNull then bestOf keep best rest
    else
      match best with
      | none => bestOf keep (some v) rest
      | some w => do
        if (← v.compare w) = keep then bestOf keep (some v) rest
        else bestOf keep (some w) rest

/-- GREATEST -/
def greatest (args : List Value) : Result := bestOf .gt none args

/-- LEAST -/
def least (args : List Value) : Result := bestOf .lt none args

/-! ## Conversion and time -/

/-- TO_STRING -/
def toText : List Value → Result
  | [.null] => .ok .null
  | [v] => .ok (.text v.render)
  | args => wrongCount "TO_STRING" args

/-- TO_NUMBER; a truth value counts as 0 or 1. -/
def toNumber : List Value → Result
  | [.null] => .ok .null
  | [.boolean b] => .ok (.integer (if b then 1 else 0))
  | [v] => do return (← v.toNumber).toValue
  | args => wrongCount "TO_NUMBER" args

/-- NOW, the time of day in milliseconds. -/
def now (time : Int64) : List Value → Result
  | [] => .ok (.integer time)
  | args => wrongCount "NOW" args

end StreamSql.Scalar
