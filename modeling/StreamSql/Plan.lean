/-
  Plans of queries.

  A plan has the expressions of a valid query in compiled form and one slot for every
  distinct aggregate call.  `extract` replaces the aggregate calls of an expression by
  references to slots; calls with one signature (the text of the call with its name in
  upper case) share a slot.  The row of a group is computed from the results of the slots.

  * `Plan.build q r`: the plan of a query;
  * `Plan.accepts`: a record passes the condition; a failing condition does not hold;
  * `Plan.groupKey`: the values of the grouping expressions, NULL where one fails;
  * `Plan.contributions`: what a record adds to each slot, NULL where an input fails.
-/
import StreamSql.Query.Validation
import StreamSql.Window.GroupKey

namespace StreamSql

/-- An aggregate of a plan. -/
structure Slot where
  /-- the name in upper case -/
  name : String
  /-- the input of each record; none for a count of records -/
  input : Option Compiled
  parameters : List Value
  /-- the text of the call -/
  signature : String
  function : AggregateFunction

namespace Slot

/-- A fresh accumulator. -/
def create (s : Slot) : Except QueryError Accumulator :=
  s.function.create s.parameters

/-- What a record adds to the slot; a count of records takes any value that is not NULL. -/
def contribution (s : Slot) (r : Registry) (record : Record) : Value :=
  match s.input with
  | none => .boolean true
  | some e =>
    match e.eval { record, registry := r } with
    | .ok v => v
    | .error _ => .null

end Slot

/-! ## Aggregate calls -/

/-- The text of a call with its name in upper case. -/
def signatureOf (name : String) (args : List Expr) : String :=
  (Expr.call (Text.upper name) args).render

/-- The slot of an aggregate call: one of its signature, or a new one. -/
def slotOf (r : Registry) (f : AggregateFunction) (name : String) (args : List Expr)
    (slots : List Slot) : Except QueryError (Expr × List Slot) :=
  let signature := signatureOf name args
  match slots.findIdx? (fun s => s.signature = signature) with
  | some index => .ok (.slot index, slots)
  | none => do
    let parameters ← parameterValues r (Text.upper name) args
    let slot : Slot := {
      name := Text.upper name, input := args.head?.map Compiled.ofExpr, parameters, signature
      function := f }
    return (.slot slots.length, slots ++ [slot])

namespace Expr

mutual

/-- The expression with its aggregate calls replaced by slots, and all slots so far. -/
def extract (r : Registry) (slots : List Slot) : Expr → Except QueryError (Expr × List Slot)
  | .call name args =>
    match r.aggregate? name with
    | some f => slotOf r f name args slots
    | none => do
      let (args, slots) ← extractList r slots args
      return (.call name args, slots)
  | .binary op left right => do
    let (left, slots) ← left.extract r slots
    let (right, slots) ← right.extract r slots
    return (.binary op left right, slots)
  | .unary op operand => do
    let (operand, slots) ← operand.extract r slots
    return (.unary op operand, slots)
  | .cases operand branches otherwise => do
    let (operand, slots) ← extractOption r slots operand
    let (branches, slots) ← extractBranches r slots branches
    let (otherwise, slots) ← extractOption r slots otherwise
    return (.cases operand branches otherwise, slots)
  | .list items => do
    let (items, slots) ← extractList r slots items
    return (.list items, slots)
  | .between negated operand low high => do
    let (operand, slots) ← operand.extract r slots
    let (low, slots) ← low.extract r slots
    let (high, slots) ← high.extract r slots
    return (.between negated operand low high, slots)
  | .column name => .ok (.column name, slots)
  | .literal value => .ok (.literal value, slots)
  | .slot index => .ok (.slot index, slots)

/-- The items with their aggregate calls replaced. -/
def extractList (r : Registry) (slots : List Slot) :
    List Expr → Except QueryError (List Expr × List Slot)
  | [] => .ok ([], slots)
  | e :: rest => do
    let (e, slots) ← e.extract r slots
    let (rest, slots) ← extractList r slots rest
    return (e :: rest, slots)

/-- An optional expression with its aggregate calls replaced. -/
def extractOption (r : Registry) (slots : List Slot) :
    Option Expr → Except QueryError (Option Expr × List Slot)
  | none => .ok (none, slots)
  | some e => do
    let (e, slots) ← e.extract r slots
    return (some e, slots)

/-- The branches with their aggregate calls replaced. -/
def extractBranches (r : Registry) (slots : List Slot) :
    List (Expr × Expr) → Except QueryError (List (Expr × Expr) × List Slot)
  | [] => .ok ([], slots)
  | (condition, result) :: rest => do
    let (condition, slots) ← condition.extract r slots
    let (result, slots) ← result.extract r slots
    let (rest, slots) ← extractBranches r slots rest
    return ((condition, result) :: rest, slots)

end

end Expr

/-! ## Plans -/

/-- A column of the result. -/
inductive Output where
  /-- every field of the record -/
  | wildcard
  | column (name : String) (expression : Compiled)

/-- The plan of a query. -/
structure Plan where
  query : Query
  condition : Option Compiled
  groupBy : List Compiled
  slots : List Slot
  outputs : List Output
  having : Option Compiled
  window : Option WindowSpec
  timestamp : Option EventTime
  registry : Registry

namespace Plan

/-- The columns of the result with the slots that they and `slots` need. -/
def outputsOf (r : Registry) (slots : List Slot) :
    List SelectField → Except QueryError (List Output × List Slot)
  | [] => .ok ([], slots)
  | .wildcard :: rest => do
    let (outputs, slots) ← outputsOf r slots rest
    return (.wildcard :: outputs, slots)
  | .column expression alias? :: rest => do
    let (tree, slots) ← expression.extract r slots
    let name := (SelectField.column expression alias?).outputName
    let (outputs, slots) ← outputsOf r slots rest
    return (.column name (.ofExpr tree) :: outputs, slots)

/-- The plan of a query, if the query is valid. -/
def build (q : Query) (r : Registry) : Except QueryError Plan := do
  q.validate r
  let (outputs, slots) ← outputsOf r [] q.fields
  let (having, slots) ← Expr.extractOption r slots q.having
  let timestamp ← EventTime.ofQuery q
  return {
    query := q
    condition := q.condition.map .ofExpr
    groupBy := q.groupBy.map .ofExpr
    slots, outputs
    having := having.map .ofExpr
    window := q.window
    timestamp
    registry := r }

/-- A plan has the windows of its query. -/
theorem window_of_build {q : Query} {r : Registry} {p : Plan} (h : build q r = .ok p) :
    p.window = q.window := by
  obtain ⟨_, -, h⟩ := bind_eq_ok.1 h
  obtain ⟨_, -, h⟩ := bind_eq_ok.1 h
  obtain ⟨_, -, h⟩ := bind_eq_ok.1 h
  obtain ⟨_, -, h⟩ := bind_eq_ok.1 h
  cases h
  rfl

/-- The query aggregates. -/
def isAggregated (p : Plan) : Bool := p.window.isSome

/-- The scope of a record without aggregates. -/
def scope (p : Plan) (record : Record) : Scope :=
  { record, registry := p.registry }

/-- A record passes the condition of the query. -/
def accepts (p : Plan) (record : Record) : Bool :=
  match p.condition with
  | none => true
  | some condition =>
    match condition.holds (p.scope record) with
    | .ok b => b
    | .error _ => false

/-- The value of a grouping expression. -/
def keyValue (p : Plan) (record : Record) (e : Compiled) : Value :=
  match e.eval (p.scope record) with
  | .ok v => v
  | .error _ => .null

/-- The group of a record. -/
def groupKey (p : Plan) (record : Record) : GroupKey :=
  .ofValues (p.groupBy.map (p.keyValue record))

/-- What a record adds to each slot. -/
def contributions (p : Plan) (record : Record) : List Value :=
  p.slots.map fun s => s.contribution p.registry record

/-- Fresh accumulators for a new group. -/
def newAccumulators (p : Plan) : Except QueryError (List Accumulator) :=
  p.slots.mapM Slot.create

end Plan

end StreamSql
