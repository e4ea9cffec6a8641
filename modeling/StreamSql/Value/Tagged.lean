/-
  The tagged text of values, which shows the kind of each value: `[Integer(2), Null]`.
  Texts are quoted and floats always have a point or an exponent.
-/
import StreamSql.Text.Escape
import StreamSql.Value

namespace StreamSql.Value

mutual

/-- The tagged text of a value. -/
def tagged : Value → String
  | integer n => "Integer(" ++ toString n.toInt ++ ")"
  | float x => "Float(" ++ FloatText.tagged x ++ ")"
  | text s => "String(" ++ Text.quote s ++ ")"
  | boolean b => "Boolean(" ++ (if b then "true" else "false") ++ ")"
  | null => "Null"
  | array items => "Array([" ++ ", ".intercalate (taggedItems items) ++ "])"
  | map fields => "Map(\x7b" ++ ", ".intercalate (taggedFields fields) ++ "\x7d)"

/-- The tagged texts of the items. -/
def taggedItems : List Value → List String
  | [] => []
  | v :: rest => v.tagged :: taggedItems rest

/-- The tagged texts of the rows. -/
def taggedFields : Table Value → List String
  | [] => []
  | (name, v) :: rest => (Text.quote name ++ ": " ++ v.tagged) :: taggedFields rest

end

/-- The tagged text of a list of values. -/
def taggedList (values : List Value) : String :=
  "[" ++ ", ".intercalate (taggedItems values) ++ "]"

end StreamSql.Value
