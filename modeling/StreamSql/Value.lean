/-
  Values of records and expressions.

  * `Value`: integers are 64-bit words, floats have double precision, maps are tables;
  * `Value.render`: the text of a value, with the rows of a map in the order of their names;
  * `Number`, `Value.number?`, `Value.toNumber`: the numeric reading of a value, in which a
    text that spells a number counts as that number;
  * `Value.float?`: the numeric reading as a float.
-/
import StreamSql.Error
import StreamSql.Number.FloatText
import StreamSql.Number.Numeral
import StreamSql.Table
import StreamSql.Text.Blank

namespace StreamSql

/-- A value. -/
inductive Value where
  | integer (n : Int64)
  | float (x : Double)
  | text (s : String)
  | boolean (b : Bool)
  | null
  | array (items : List Value)
  | map (fields : List (String × Value))

namespace Value

instance : Inhabited Value := ⟨null⟩

/-- The kind of a value. -/
def kind : Value → ValueKind
  | integer _ => .integer
  | float _ => .float
  | text _ => .text
  | boolean _ => .boolean
  | null => .null
  | array _ => .array
  | map _ => .map

/-- The value is NULL. -/
def isNull : Value → Bool
  | null => true
  | _ => false

@[simp]
theorem isNull_iff {v : Value} : v.isNull = true ↔ v = null := by
  cases v <;> simp [isNull]

/-- The value is an integer or a float; a text that spells a number is not. -/
def isNumeric : Value → Bool
  | integer _ | float _ => true
  | _ => false

/-! ## Text -/

/-- Rows in the order of their names, each as `name: text`. -/
def joinFields (rows : Table String) : String :=
  ", ".intercalate (rows.sorted.map fun row => row.1 ++ ": " ++ row.2)

mutual

/-- The text of a value. -/
def render : Value → String
  | null => "NULL"
  | integer n => toString n.toInt
  | float x => FloatText.plain x
  | text s => s
  | boolean true => "true"
  | boolean false => "false"
  | array items => "[" ++ ", ".intercalate (renderItems items) ++ "]"
  | map fields => "\x7b" ++ joinFields (renderFields fields) ++ "\x7d"

/-- The texts of the items. -/
def renderItems : List Value → List String
  | [] => []
  | v :: rest => v.render :: renderItems rest

/-- The texts of the values of a table. -/
def renderFields : Table Value → Table String
  | [] => []
  | (name, v) :: rest => (name, v.render) :: renderFields rest

end

/-- A mismatch in which this value is what was found. -/
def mismatch {α : Type} (expected : Expectation) (v : Value) : Except QueryError α :=
  .error (.mismatch expected (.kind v.kind) (some v.render))

/-! ## Numbers -/

/-- The numeric reading as a float. -/
def float? : Value → Option Double
  | integer n => some (.ofWord n)
  | float x => some x
  | text s => Numeral.readFloat? (Text.trim s)
  | _ => none

end Value

/-- A number: integers stay integers as long as they fit a word. -/
inductive Number where
  | integer (n : Int64)
  | float (x : Double)

namespace Number

/-- The number as a value. -/
def toValue : Number → Value
  | integer n => .integer n
  | float x => .float x

/-- The number as a float. -/
def toDouble : Number → Double
  | integer n => .ofWord n
  | float x => x

/-- The number that a text spells, blanks around it left aside. -/
def ofText? (s : String) : Option Number :=
  let s := Text.trim s
  match Numeral.readWord? s with
  | some n => some (integer n)
  | none => (Numeral.readFloat? s).map float

end Number

namespace Value

/-- The numeric reading of a value. -/
def number? : Value → Option Number
  | integer n => some (.integer n)
  | float x => some (.float x)
  | text s => Number.ofText? s
  | _ => none

/-- The numeric reading of a value; a value without one is a mismatch. -/
def toNumber (v : Value) : Except QueryError Number :=
  match v.number? with
  | some n => .ok n
  | none =>
    match v with
    | text s => .error (.mismatch .number .nonNumericText (some s))
    | v => mismatch .number v

theorem toNumber_eq_ok_iff {v : Value} {n : Number} : v.toNumber = .ok n ↔ v.number? = some n := by
  unfold toNumber
  cases h : v.number? with
  | some m => simp
  | none => cases v <;> simp [mismatch]

end Value

end StreamSql
