/-
  Text of expressions.

  * `Literal.render`: quoted texts with doubled quotes, floats with a point;
  * `Expr.render`: a text that reads back as the tree; every operator stands in
    parentheses with its operands;
  * `Expr.defaultName`: the name of a column without an alias.
-/
import StreamSql.Expr
import StreamSql.Number.FloatText
import StreamSql.Text.Case

namespace StreamSql

/-- The text with each quote doubled. -/
def doubleQuotes (s : String) : String :=
  String.ofList (s.toList.flatMap fun c => if c = '\x27' then [c, c] else [c])

/-- The text of a constant. -/
def Literal.render : Literal → String
  | .text s => "'" ++ doubleQuotes s ++ "'"
  | .integer n => toString n.toInt
  | .float x => FloatText.literal x
  | .boolean true => "TRUE"
  | .boolean false => "FALSE"
  | .null => "NULL"

namespace Expr

/-- An operator with one operand, in parentheses. -/
def renderUnary (op : UnaryOp) (operand : String) : String :=
  match op with
  | .not => "(NOT " ++ operand ++ ")"
  | .minus => "(-" ++ operand ++ ")"
  | .plus => "(+" ++ operand ++ ")"
  | .isNull => "(" ++ operand ++ " IS NULL)"
  | .isNotNull => "(" ++ operand ++ " IS NOT NULL)"

mutual

/-- The text of an expression. -/
def render : Expr → String
  | .column name => name
  | .literal value => value.render
  | .binary op left right =>
    "(" ++ left.render ++ " " ++ op.symbol ++ " " ++ right.render ++ ")"
  | .unary op operand => renderUnary op operand.render
  | .call name args =>
    if args.isEmpty && Text.sameAscii name "COUNT" then name ++ "(*)"
    else name ++ "(" ++ ", ".intercalate (renderList args) ++ ")"
  | .cases operand branches otherwise =>
    "CASE" ++ renderOption " " operand ++ renderBranches branches
      ++ renderOption " ELSE " otherwise ++ " END"
  | .list items => "(" ++ ", ".intercalate (renderList items) ++ ")"
  | .between negated operand low high =>
    "(" ++ operand.render ++ (if negated then " NOT BETWEEN " else " BETWEEN ")
      ++ low.render ++ " AND " ++ high.render ++ ")"
  | .slot index => "$agg" ++ toString index

/-- The texts of the items. -/
def renderList : List Expr → List String
  | [] => []
  | e :: rest => e.render :: renderList rest

/-- An optional expression behind its lead. -/
def renderOption (lead : String) : Option Expr → String
  | none => ""
  | some e => lead ++ e.render

/-- The branches of a CASE. -/
def renderBranches : List (Expr × Expr) → String
  | [] => ""
  | (condition, result) :: rest =>
    " WHEN " ++ condition.render ++ " THEN " ++ result.render ++ renderBranches rest

end

/-- The name of a column that has no alias. -/
def defaultName : Expr → String
  | .column name => name
  | e => e.render

end Expr

end StreamSql
