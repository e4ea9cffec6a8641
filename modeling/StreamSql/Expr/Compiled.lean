/-
  Compiled expressions.

  Text with at most one level of CASE is compiled natively and shown by its rendering.  Text
  that nests CASE is delegated: it is read by the unlimited grammar and shown as it was
  written.  Both evaluate alike.
-/
import StreamSql.Expr.Eval
import StreamSql.Expr.Parser

namespace StreamSql

/-- An expression ready to be evaluated. -/
structure Compiled where
  tree : Expr
  /-- how the expression is shown -/
  text : String
  delegated : Bool

namespace Compiled

/-- A tree that nests CASE is delegated. -/
def ofExpr (tree : Expr) : Compiled :=
  ⟨tree, tree.render, tree.caseDepth > 1⟩

/-- The expression that a text spells. -/
def ofText (text : String) : Except QueryError Compiled :=
  match Expr.parse .one text with
  | .ok tree => .ok ⟨tree, tree.render, false⟩
  | .error (.nestedCase _) => do
    let tree ← Expr.parse .unlimited text
    return ⟨tree, text, true⟩
  | .error e => .error e

/-- The value of the expression. -/
def eval (c : Compiled) (s : Scope) : Except QueryError Value :=
  c.tree.eval s

/-- The expression holds as a condition. -/
def holds (c : Compiled) (s : Scope) : Except QueryError Bool :=
  c.tree.holds s

/-- The columns that the expression reads, in order and each once. -/
def fields (c : Compiled) : List String :=
  (c.tree.columns.mergeSort fun a b => a ≤ b).eraseReps

end Compiled

end StreamSql
