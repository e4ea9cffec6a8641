/-
  Expressions of the query language.

  * `Literal`, `BinaryOp`, `UnaryOp`, `Expr`: the trees;
  * `Expr.subterms e`: the tree and all its descendants, parents first;
  * `Expr.columns e`, `Expr.calls e`: the columns read and the calls made, in that order;
  * `Expr.caseDepth e`: how deeply CASE expressions are nested;
  * `Expr.same a b`: equality of trees up to the equality of floats, in which not a number
    differs from itself and the two zeros are equal.
-/
import StreamSql.Number.Double

namespace StreamSql

/-- A constant in an expression. -/
inductive Literal where
  | text (s : String)
  | integer (n : Int64)
  | float (x : Double)
  | boolean (b : Bool)
  | null
  deriving DecidableEq

/-- The operators with two operands. -/
inductive BinaryOp where
  | add | subtract | multiply | divide | modulo
  | equal | notEqual | lessThan | lessOrEqual | greaterThan | greaterOrEqual
  | and | or
  | like | notLike | concat
  | isIn | notIn
  deriving DecidableEq, Repr

/-- The operators with one operand. -/
inductive UnaryOp where
  | not | minus | plus | isNull | isNotNull
  deriving DecidableEq, Repr

/-- An expression. -/
inductive Expr where
  /-- a column, possibly dotted -/
  | column (name : String)
  | literal (value : Literal)
  | binary (op : BinaryOp) (left right : Expr)
  | unary (op : UnaryOp) (operand : Expr)
  /-- a call; `COUNT(*)` has no arguments -/
  | call (name : String) (args : List Expr)
  /-- a simple CASE has an operand, a searched one has none -/
  | cases (operand : Option Expr) (branches : List (Expr × Expr)) (otherwise : Option Expr)
  /-- the list on the right of IN -/
  | list (items : List Expr)
  | between (negated : Bool) (operand low high : Expr)
  /-- the result of an aggregate of the plan -/
  | slot (index : Nat)

/-- The symbol of an operator. -/
def BinaryOp.symbol : BinaryOp → String
  | add => "+" | subtract => "-" | multiply => "*" | divide => "/" | modulo => "%"
  | equal => "=" | notEqual => "!=" | lessThan => "<" | lessOrEqual => "<="
  | greaterThan => ">" | greaterOrEqual => ">=" | and => "AND" | or => "OR"
  | like => "LIKE" | notLike => "NOT LIKE" | concat => "||" | isIn => "IN"
  | notIn => "NOT IN"

namespace Expr

/-! ## Subterms -/

mutual

/-- The tree and all its descendants, parents first. -/
def subterms : Expr → List Expr
  | .column name => [.column name]
  | .literal value => [.literal value]
  | .binary op left right => .binary op left right :: (left.subterms ++ right.subterms)
  | .unary op operand => .unary op operand :: operand.subterms
  | .call name args => .call name args :: subtermsOfList args
  | .cases operand branches otherwise =>
    .cases operand branches otherwise ::
      (subtermsOfOption operand ++ subtermsOfBranches branches ++ subtermsOfOption otherwise)
  | .list items => .list items :: subtermsOfList items
  | .between negated operand low high =>
    .between negated operand low high :: (operand.subterms ++ low.subterms ++ high.subterms)
  | .slot index => [.slot index]

/-- The subterms of the items in order. -/
def subtermsOfList : List Expr → List Expr
  | [] => []
  | e :: rest => e.subterms ++ subtermsOfList rest

/-- The subterms of an optional expression. -/
def subtermsOfOption : Option Expr → List Expr
  | none => []
  | some e => e.subterms

/-- The subterms of the branches in order. -/
def subtermsOfBranches : List (Expr × Expr) → List Expr
  | [] => []
  | (condition, result) :: rest =>
    condition.subterms ++ result.subterms ++ subtermsOfBranches rest

end

theorem self_mem_subterms (e : Expr) : e ∈ e.subterms := by
  cases e <;> simp [subterms]

/-- The column of a column reference. -/
def column? : Expr → Option String
  | .column name => some name
  | _ => none

/-- The name and the arguments of a call. -/
def call? : Expr → Option (String × List Expr)
  | .call name args => some (name, args)
  | _ => none

/-- The columns that the tree reads. -/
def columns (e : Expr) : List String :=
  e.subterms.filterMap column?

/-- The calls that the tree makes. -/
def calls (e : Expr) : List (String × List Expr) :=
  e.subterms.filterMap call?

/-- Some call in the tree has a name with this property. -/
def hasCall (property : String → Bool) (e : Expr) : Bool :=
  e.calls.any fun c => property c.1

/-! ## Nesting of CASE -/

mutual

/-- The depth of nested CASE expressions, `0` when there is none. -/
def caseDepth : Expr → Nat
  | .column _ | .literal _ | .slot _ => 0
  | .binary _ left right => max left.caseDepth right.caseDepth
  | .unary _ operand => operand.caseDepth
  | .call _ args => caseDepthOfList args
  | .list items => caseDepthOfList items
  | .between _ operand low high => max (max operand.caseDepth low.caseDepth) high.caseDepth
  | .cases operand branches otherwise =>
    max (max (caseDepthOfOption operand) (caseDepthOfBranches branches))
      (caseDepthOfOption otherwise) + 1

/-- The greatest depth of the items. -/
def caseDepthOfList : List Expr → Nat
  | [] => 0
  | e :: rest => max e.caseDepth (caseDepthOfList rest)

/-- The depth of an optional expression. -/
def caseDepthOfOption : Option Expr → Nat
  | none => 0
  | some e => e.caseDepth

/-- The greatest depth in the branches. -/
def caseDepthOfBranches : List (Expr × Expr) → Nat
  | [] => 0
  | (condition, result) :: rest =>
    max (max condition.caseDepth result.caseDepth) (caseDepthOfBranches rest)

end

/-! ## Equality up to floats -/

/-- The constants are equal, floats by value. -/
def sameLiteral : Literal → Literal → Bool
  | .float x, .float y => x == y
  | a, b => a = b

mutual

/-- The trees are equal up to the equality of floats. -/
def same : Expr → Expr → Bool
  | .column a, .column b => a = b
  | .literal a, .literal b => sameLiteral a b
  | .binary op l r, .binary op' l' r' => op = op' && same l l' && same r r'
  | .unary op e, .unary op' e' => op = op' && same e e'
  | .call f as, .call f' as' => f = f' && sameList as as'
  | .cases e bs o, .cases e' bs' o' =>
    sameOption e e' && sameBranches bs bs' && sameOption o o'
  | .list as, .list as' => sameList as as'
  | .between n e l h, .between n' e' l' h' => n = n' && same e e' && same l l' && same h h'
  | .slot i, .slot j => i = j
  | _, _ => false

/-- The lists are equal item by item. -/
def sameList : List Expr → List Expr → Bool
  | [], [] => true
  | e :: rest, e' :: rest' => same e e' && sameList rest rest'
  | _, _ => false

/-- Both expressions are absent or equal. -/
def sameOption : Option Expr → Option Expr → Bool
  | none, none => true
  | some e, some e' => same e e'
  | _, _ => false

/-- The branches are equal one by one. -/
def sameBranches : List (Expr × Expr) → List (Expr × Expr) → Bool
  | [], [] => true
  | (c, r) :: rest, (c', r') :: rest' => same c c' && same r r' && sameBranches rest rest'
  | _, _ => false

end

end Expr

end StreamSql
