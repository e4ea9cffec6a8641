/-
  Evaluation of expressions.

  * `Scope`: what an expression can see: a record, the functions, the results of aggregates,
    the bounds of a window, and columns already computed, which come before the record;
  * `Expr.eval`: the value of an expression, or why it has none;
  * `Expr.holds`: the expression as a condition.

  Arithmetic and comparisons with NULL give NULL, IS [NOT] NULL never does.  AND and OR are
  three-valued; the right side is not looked at when the left one decides.  Of a CASE the
  first branch that holds counts, and NULL never holds.
-/
import StreamSql.Expr.Printer
import StreamSql.Function.Registry
import StreamSql.Record
import StreamSql.Text.Like
import StreamSql.Value.Arith

namespace StreamSql

/-- What an expression can see. -/
structure Scope where
  record : Record
  registry : Registry
  /-- the results of the aggregates of a group -/
  aggregates : List Value := []
  /-- the bounds of the firing window -/
  window : Option Bounds := none
  /-- the columns already computed -/
  aliases : Option Row := none

namespace Scope

/-- The value of a column. -/
def column (s : Scope) (name : String) : Value :=
  match s.aliases.bind (Table.get? · name) with
  | some v => v
  | none => s.record.path name

end Scope

/-- The bound of the window that a function of the scope answers. -/
inductive WindowBound where
  | start | stop
  deriving DecidableEq, Repr

namespace WindowBound

/-- The bound that a name stands for, in any case of ASCII letters. -/
def ofName? (name : String) : Option WindowBound :=
  if Text.sameAscii name "WINDOW_START" then some start
  else if Text.sameAscii name "WINDOW_END" then some stop
  else none

/-- The bound of a window; NULL if there is none. -/
def value (bound : WindowBound) (window : Option Bounds) : Value :=
  match window with
  | none => .null
  | some bounds => .integer (match bound with | start => bounds.start | stop => bounds.stop)

end WindowBound

namespace Value

/-- The value of a constant. -/
def ofLiteral : Literal → Value
  | .text s => text s
  | .integer n => integer n
  | .float x => float x
  | .boolean b => boolean b
  | .null => null

/-- A truth value as an operand of AND, OR and NOT; NULL is unknown. -/
def truth (symbol : String) : Value → Except QueryError (Option Bool)
  | boolean b => .ok (some b)
  | null => .ok none
  | v => v.mismatch (.booleanOperand symbol)

/-- A truth value that may be unknown. -/
def ofTruth : Option Bool → Value
  | some b => boolean b
  | none => null

/-- The matching of LIKE and NOT LIKE, given the compiled patterns that are kept, and what is kept
    from then on. -/
def likeThrough (engine : RegexEngine) (cache : PatternCache engine) (negated : Bool)
    (a b : Value) : Except QueryError Value × PatternCache engine :=
  match b with
  | text pattern =>
    match cache.compiled pattern with
    | (some program, cache) => (.ok (boolean (engine.isMatch program a.render != negated)), cache)
    | (none, cache) => (.error (.execution (.patternTooLarge pattern Regex.sizeLimit)), cache)
  | b => (b.mismatch .likePattern, cache)

/-- The matching of LIKE.  It does not depend on the patterns that are kept, and so none are. -/
def likeValue (negated : Bool) (a b : Value) : Except QueryError Value :=
  (likeThrough Regex.engine {} negated a b).1

/-- A comparison by the order of its operands. -/
def ordered (test : Ordering → Bool) (a b : Value) : Except QueryError Value := do
  return boolean (test (← a.compare b))

/-- The operators whose operands are both evaluated and that give NULL for NULL. -/
def strict (op : BinaryOp) (a b : Value) : Except QueryError Value :=
  match op with
  | .concat => .ok (text (a.render ++ b.render))
  | .equal => .ok (boolean (a.sqlEquals b))
  | .notEqual => .ok (boolean (!a.sqlEquals b))
  | .lessThan => ordered (· == .lt) a b
  | .lessOrEqual => ordered (· != .gt) a b
  | .greaterThan => ordered (· == .gt) a b
  | .greaterOrEqual => ordered (· != .lt) a b
  | .like => likeValue false a b
  | .notLike => likeValue true a b
  | .add | .subtract | .multiply | .divide | .modulo | .and | .or | .isIn | .notIn => .ok null

/-- The operators whose operands are both evaluated. -/
def binary (op : BinaryOp) (a b : Value) : Except QueryError Value :=
  match op with
  | .add => arith .add a b
  | .subtract => arith .subtract a b
  | .multiply => arith .multiply a b
  | .divide => divide a b
  | .modulo => modulo a b
  | op => if a.isNull || b.isNull then .ok null else strict op a b

/-- The operators with one operand. -/
def unary (op : UnaryOp) (v : Value) : Except QueryError Value :=
  match op with
  | .isNull => .ok (boolean v.isNull)
  | .isNotNull => .ok (boolean (!v.isNull))
  | .not => do return ofTruth ((← v.truth "NOT").map (!·))
  | .minus => v.negate
  | .plus => if v.isNull then .ok null else do return (← v.toNumber).toValue

/-- The truth of AND (`decisive = false`) or OR (`decisive = true`) whose left side does not
    decide: the right side decides, or both sides are known, or the result is unknown. -/
def connective (decisive : Bool) (left right : Option Bool) : Option Bool :=
  if right = some decisive then some decisive
  else if left.isSome ∧ right.isSome then some (!decisive)
  else none

/-- Whether a value lies between two bounds, in the given direction. -/
def between (negated : Bool) (v low high : Value) : Except QueryError Value :=
  if v.isNull || low.isNull || high.isNull then
    .ok null
  else do
    if (← v.compare low) = .lt then return boolean negated
    return boolean (((← v.compare high) != .gt) != negated)

/-- A WHEN value matches the subject of a CASE; NULL never does. -/
def matchesSubject (subject candidate : Value) : Bool :=
  !subject.isNull && !candidate.isNull && subject.sqlEquals candidate

end Value

namespace Expr

mutual

/-- The value of an expression. -/
def eval (s : Scope) : Expr → Except QueryError Value
  | .column name => .ok (s.column name)
  | .literal value => .ok (.ofLiteral value)
  | .slot index =>
    match s.aggregates[index]? with
    | some v => .ok v
    | none => .error (.execution (.missingAggregate index))
  | .list _ => .error (.execution .listOutsideIn)
  | .unary op operand => do
    let v ← operand.eval s
    v.unary op
  | .between negated operand low high => do
    let v ← operand.eval s
    let low ← low.eval s
    let high ← high.eval s
    v.between negated low high
  | .call name args =>
    match WindowBound.ofName? name with
    | some bound =>
      if args.isEmpty then .ok (bound.value s.window)
      else .error (.execution (.contextArguments (Text.upper name)))
    | none => do
      let values ← evalList s args
      s.registry.call name values
  | .cases operand branches otherwise => do
    let subject ← evalOption s operand
    match ← evalBranches s subject branches with
    | some v => return v
    | none => return (← evalOption s otherwise).getD .null
  | .binary op left right =>
    match op with
    | .and => do
      let a ← (← left.eval s).truth "AND"
      if a = some false then return .boolean false
      return .ofTruth (Value.connective false a (← (← right.eval s).truth "AND"))
    | .or => do
      let a ← (← left.eval s).truth "OR"
      if a = some true then return .boolean true
      return .ofTruth (Value.connective true a (← (← right.eval s).truth "OR"))
    | .isIn => evalMembership s false (left.eval s) right
    | .notIn => evalMembership s true (left.eval s) right
    | op => do
      let a ← left.eval s
      let b ← right.eval s
      a.binary op b

/-- The value of IN and NOT IN, given what the left side evaluates to; the right side has to
    be a list, whatever the left one is. -/
def evalMembership (s : Scope) (negated : Bool) (left : Except QueryError Value) :
    Expr → Except QueryError Value
  | .list items => do
    let v ← left
    if v.isNull then return .null
    else evalItems s negated v false items
  | e => .error (.execution (.inWithoutList e.render))

/-- The value of IN for the rest of the list; `unknown` tells whether NULL was met. -/
def evalItems (s : Scope) (negated : Bool) (v : Value) (unknown : Bool) :
    List Expr → Except QueryError Value
  | [] => .ok (if unknown then .null else .boolean negated)
  | e :: rest => do
    let candidate ← e.eval s
    if candidate.isNull then evalItems s negated v true rest
    else if v.sqlEquals candidate then return .boolean (!negated)
    else evalItems s negated v unknown rest

/-- The values of a list of expressions. -/
def evalList (s : Scope) : List Expr → Except QueryError (List Value)
  | [] => .ok []
  | e :: rest => do
    let v ← e.eval s
    let vs ← evalList s rest
    return v :: vs

/-- The value of an optional expression. -/
def evalOption (s : Scope) : Option Expr → Except QueryError (Option Value)
  | none => .ok none
  | some e => do return some (← e.eval s)

/-- The result of the first branch that holds: against the subject if there is one, and as a
    condition otherwise. -/
def evalBranches (s : Scope) (subject : Option Value) :
    List (Expr × Expr) → Except QueryError (Option Value)
  | [] => .ok none
  | (condition, result) :: rest => do
    let v ← condition.eval s
    if (match subject with
        | some subject => Value.matchesSubject subject v
        | none => v.isTruthy) then
      return some (← result.eval s)
    else
      evalBranches s subject rest

end

/-- The expression holds as a condition. -/
def holds (s : Scope) (e : Expr) : Except QueryError Bool := do
  return (← e.eval s).isTruthy

end Expr

end StreamSql
