/-
  Continuous queries: what is selected from which stream under which condition, how it is
  grouped, and the properties of the WITH clauses.
-/
import StreamSql.Table
import StreamSql.Window.Spec

namespace StreamSql

/-- A column of the SELECT clause. -/
inductive SelectField where
  /-- every field of the record -/
  | wildcard
  | column (expression : Expr) (alias? : Option String)

/-- The name of a column in the result. -/
def SelectField.outputName : SelectField → String
  | wildcard => "*"
  | column _ (some name) => name
  | column expression none => expression.defaultName

/-- The expression of a column. -/
def SelectField.expression? : SelectField → Option Expr
  | wildcard => none
  | column expression _ => some expression

/-- A continuous query. -/
structure Query where
  fields : List SelectField
  distinct : Bool
  source : String
  condition : Option Expr
  /-- the grouping expressions without the window -/
  groupBy : List Expr
  window : Option WindowSpec
  having : Option Expr
  limit : Option Nat
  /-- the properties of the WITH clauses, their names in upper case -/
  properties : Table String

namespace Query

/-- The field that holds the event time. -/
def timestampField (q : Query) : Option String := q.properties.get? "TIMESTAMP"

/-- The code of the unit of the event time. -/
def timeUnit (q : Query) : Option String := q.properties.get? "TIMEUNIT"

/-- The selected expressions. -/
def selected (q : Query) : List Expr := q.fields.filterMap SelectField.expression?

end Query

end StreamSql
