/-
  The kinds of values, with the names under which messages show them.
-/

namespace StreamSql

/-- The kind of a value. -/
inductive ValueKind where
  | integer | float | text | boolean | null | array | map
  deriving DecidableEq, Repr

/-- The name of the kind in messages. -/
def ValueKind.name : ValueKind → String
  | integer => "INTEGER" | float => "FLOAT" | text => "STRING" | boolean => "BOOLEAN"
  | null => "NULL" | array => "ARRAY" | map => "MAP"

end StreamSql
