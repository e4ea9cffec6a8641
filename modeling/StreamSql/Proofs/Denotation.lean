/-
  What a query says about a group of records, without slots and accumulators that are kept.

  * `Expr.evalWith known s e`: the value of an expression in which some calls have known values
    (`evalWith_none`: the value is that of `eval` if there are none);
  * `aggregateValue r records f name args`: what a fresh accumulator makes of the values that
    the first argument has on the records;
  * `Query.rowOf`, `Query.groupRow?`: the row that SELECT and HAVING make of a group, in which
    every aggregate call has this value.
-/
import StreamSql.Plan.Projection

namespace StreamSql

namespace Expr

/-! ## Expressions with known calls -/

/-- The values of some calls. -/
abbrev KnownCalls := String → List Expr → Option (Except QueryError Value)

mutual

/-- The value of an expression in which some calls have known values. -/
def evalWith (known : KnownCalls) (s : Scope) : Expr → Except QueryError Value
  | .column name => .ok (s.column name)
  | .literal value => .ok (.ofLiteral value)
  | .slot index =>
    match s.aggregates[index]? with
    | some v => .ok v
    | none => .error (.execution (.missingAggregate index))
  | .list _ => .error (.execution .listOutsideIn)
  | .unary op operand => do
    let v ← operand.evalWith known s
    v.unary op
  | .between negated operand low high => do
    let v ← operand.evalWith known s
    let low ← low.evalWith known s
    let high ← high.evalWith known s
    v.between negated low high
  | .call name args =>
    match known name args with
    | some result => result
    | none =>
      match WindowBound.ofName? name with
      | some bound =>
        if args.isEmpty then .ok (bound.value s.window)
        else .error (.execution (.contextArguments (Text.upper name)))
      | none => do
        let values ← evalListWith known s args
        s.registry.call name values
  | .cases operand branches otherwise => do
    let subject ← evalOptionWith known s operand
    match ← evalBranchesWith known s subject branches with
    | some v => return v
    | none => return (← evalOptionWith known s otherwise).getD .null
  | .binary op left right =>
    match op with
    | .and => do
      let a ← (← left.evalWith known s).truth "AND"
      if a = some false then return .boolean false
      return .ofTruth (Value.connective false a (← (← right.evalWith known s).truth "AND"))
    | .or => do
      let a ← (← left.evalWith known s).truth "OR"
      if a = some true then return .boolean true
      return .ofTruth (Value.connective true a (← (← right.evalWith known s).truth "OR"))
    | .isIn => evalMembershipWith known s false (left.evalWith known s) right
    | .notIn => evalMembershipWith known s true (left.evalWith known s) right
    | op => do
      let a ← left.evalWith known s
      let b ← right.evalWith known s
      a.binary op b

/-- The value of IN and NOT IN. -/
def evalMembershipWith (known : KnownCalls) (s : Scope) (negated : Bool)
    (left : Except QueryError Value) : Expr → Except QueryError Value
  | .list items => do
    let v ← left
    if v.isNull then return .null
    else evalItemsWith known s negated v false items
  | e => .error (.execution (.inWithoutList e.render))

/-- The value of IN for the rest of the list. -/
def evalItemsWith (known : KnownCalls) (s : Scope) (negated : Bool) (v : Value)
    (unknown : Bool) : List Expr → Except QueryError Value
  | [] => .ok (if unknown then .null else .boolean negated)
  | e :: rest => do
    let candidate ← e.evalWith known s
    if candidate.isNull then evalItemsWith known s negated v true rest
    else if v.sqlEquals candidate then return .boolean (!negated)
    else evalItemsWith known s negated v unknown rest

/-- The values of a list of expressions. -/
def evalListWith (known : KnownCalls) (s : Scope) : List Expr → Except QueryError (List Value)
  | [] => .ok []
  | e :: rest => do
    let v ← e.evalWith known s
    let vs ← evalListWith known s rest
    return v :: vs

/-- The value of an optional expression. -/
def evalOptionWith (known : KnownCalls) (s : Scope) :
    Option Expr → Except QueryError (Option Value)
  | none => .ok none
  | some e => do return some (← e.evalWith known s)

/-- The result of the first branch that holds. -/
def evalBranchesWith (known : KnownCalls) (s : Scope) (subject : Option Value) :
    List (Expr × Expr) → Except QueryError (Option Value)
  | [] => .ok none
  | (condition, result) :: rest => do
    let v ← condition.evalWith known s
    if (match subject with
        | some subject => Value.matchesSubject subject v
        | none => v.isTruthy) then
      return some (← result.evalWith known s)
    else
      evalBranchesWith known s subject rest

end

/-- No call is known. -/
def noCalls : KnownCalls := fun _ _ => none

mutual

/-- **Without known calls** the value is that of the evaluator. -/
theorem evalWith_none (s : Scope) : ∀ e : Expr, e.evalWith noCalls s = e.eval s
  | .column _ | .literal _ | .list _ => by simp only [evalWith, eval]
  | .slot _ => rfl
  | .unary op operand => by simp only [evalWith, eval, evalWith_none s operand]
  | .between negated operand low high => by
    simp only [evalWith, eval, evalWith_none s operand, evalWith_none s low, evalWith_none s high]
  | .call name args => by
    rw [evalWith, evalListWith_none s args]
    rfl
  | .cases operand branches otherwise => by
    simp only [evalWith, evalOptionWith_none s operand, evalOptionWith_none s otherwise,
      evalBranchesWith_none s _ branches]
    rfl
  | .binary op left right => by
    cases op <;>
      simp only [evalWith, eval, evalWith_none s left, evalWith_none s right,
        evalMembershipWith_none s _ _ right]

theorem evalMembershipWith_none (s : Scope) (negated : Bool) (left : Except QueryError Value) :
    ∀ e : Expr, evalMembershipWith noCalls s negated left e = evalMembership s negated left e
  | .list items => by
    simp only [evalMembershipWith, evalMembership, evalItemsWith_none s negated _ _ items]
  | .column _ | .literal _ | .slot _ | .unary _ _ | .between _ _ _ _ | .call _ _ | .cases _ _ _
  | .binary _ _ _ => by simp only [evalMembershipWith, evalMembership]

theorem evalItemsWith_none (s : Scope) (negated : Bool) (v : Value) (unknown : Bool) :
    ∀ items : List Expr,
      evalItemsWith noCalls s negated v unknown items = evalItems s negated v unknown items
  | [] => by simp only [evalItemsWith, evalItems]
  | e :: rest => by
    simp only [evalItemsWith, evalItems, evalWith_none s e, evalItemsWith_none s negated v _ rest]

theorem evalListWith_none (s : Scope) :
    ∀ items : List Expr, evalListWith noCalls s items = evalList s items
  | [] => by simp only [evalListWith, evalList]
  | e :: rest => by
    simp only [evalListWith, evalList, evalWith_none s e, evalListWith_none s rest]

theorem evalOptionWith_none (s : Scope) :
    ∀ e : Option Expr, evalOptionWith noCalls s e = evalOption s e
  | none => by simp only [evalOptionWith, evalOption]
  | some e => by simp only [evalOptionWith, evalOption, evalWith_none s e]

theorem evalBranchesWith_none (s : Scope) (subject : Option Value) :
    ∀ branches : List (Expr × Expr),
      evalBranchesWith noCalls s subject branches = evalBranches s subject branches
  | [] => by simp only [evalBranchesWith, evalBranches]
  | (condition, result) :: rest => by
    simp only [evalBranchesWith, evalWith_none s condition, evalWith_none s result,
      evalBranchesWith_none s subject rest]
    rfl

end

end Expr

open StreamSql.Expr

/-! ## Aggregates of records -/

/-- One value more, if the aggregate takes it. -/
def Accumulator.feed (acc : Accumulator) (v : Value) : Accumulator :=
  match acc.add v with
  | .ok acc' => acc'
  | .error _ => acc

/-- What a record gives to a call with these arguments: the value of the first one, unless it
    has none or is NULL; a call without arguments takes any value. -/
def givenTo (r : Registry) (args : List Expr) (record : Record) : Option Value :=
  match args with
  | [] => some (.boolean true)
  | e :: _ =>
    match e.eval { record, registry := r } with
    | .ok v => if v.isNull then none else some v
    | .error _ => none

/-- The value of an aggregate call over records, from a fresh accumulator. -/
def aggregateValue (r : Registry) (records : List Record) (f : AggregateFunction)
    (name : String) (args : List Expr) : Except QueryError Value := do
  let parameters ← parameterValues r name args
  let fresh ← f.create parameters
  return ((records.filterMap (givenTo r args)).foldl Accumulator.feed fresh).result

/-- The values of the aggregate calls over records. -/
def aggregateCalls (r : Registry) (records : List Record) : KnownCalls := fun name args =>
  (r.aggregate? name).map fun f => aggregateValue r records f name args

/-! ## Rows of groups -/

namespace Query

/-- The row with one selected column more. -/
def addField (substitute : Substitute) (known : KnownCalls) (s : Scope) (row : Row) :
    SelectField → Row
  | .wildcard => s.record.fields.foldl (fun row field => row.insert field.1 field.2) row
  | .column e alias? =>
    row.insert (SelectField.column e alias?).outputName
      (match e.evalWith known s with
      | .ok v => v
      | .error _ => substitute.value)

/-- The selected columns in order. -/
def rowOf (q : Query) (substitute : Substitute) (known : KnownCalls) (s : Scope) : Row :=
  q.fields.foldl (addField substitute known s) []

/-- HAVING holds of a row; it sees the row first, and does not hold where it fails. -/
def keeps (q : Query) (known : KnownCalls) (s : Scope) (row : Row) : Bool :=
  match q.having with
  | none => true
  | some e =>
    match e.evalWith known { s with aliases := row } with
    | .ok v => v.isTruthy
    | .error _ => false

/-- The row of the group of these records, if HAVING holds of it.  Columns that are not
    aggregated are read from the first record. -/
def groupRow? (q : Query) (r : Registry) (substitute : Substitute) (bounds : Bounds)
    (first : Record) (rest : List Record) : Option Row :=
  let known := aggregateCalls r (first :: rest)
  let s : Scope := { record := first, registry := r, window := bounds }
  let row := q.rowOf substitute known s
  if q.keeps known s row then some row else none

end Query

end StreamSql
