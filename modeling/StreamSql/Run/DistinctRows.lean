/-
  Rows without repetition.

  Two rows are equal if they have the same columns with values equal as keys.  A row is
  looked up by the key of the map of its columns.

  * `DistinctRows.insert? d row`: the rows with the new one, unless it is there;
  * `DistinctRows.firsts rows`: the first occurrence of every row.
-/
import StreamSql.Record
import StreamSql.Window.GroupKey

namespace StreamSql

/-- The rows met so far, by their keys. -/
structure DistinctRows where
  keys : List GroupKey := []

namespace DistinctRows

/-- The key of a row. -/
def keyOf (row : Row) : GroupKey :=
  .ofValues [.map row]

/-- An equal row was met before. -/
def contains (d : DistinctRows) (row : Row) : Bool :=
  d.keys.any fun k => k.same (keyOf row)

/-- The rows with one more, unless an equal one was met before. -/
def insert? (d : DistinctRows) (row : Row) : Option DistinctRows :=
  if d.contains row then none else some ⟨keyOf row :: d.keys⟩

/-- The rows that were not met before, each once. -/
def firstsFrom (d : DistinctRows) : List Row → List Row
  | [] => []
  | row :: rest =>
    match d.insert? row with
    | some d => row :: firstsFrom d rest
    | none => firstsFrom d rest

/-- The first occurrence of every row. -/
def firsts (rows : List Row) : List Row :=
  firstsFrom {} rows

end DistinctRows

end StreamSql
