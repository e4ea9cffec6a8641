/-
  What a query has to satisfy before it runs.

  * Calls (`checkCall`): the function is known and takes that many arguments, the parameters
    of an aggregate behind its input are constants that it accepts, and a window is named
    only in GROUP BY.
  * Aggregates (`checkAggregates`): they stand only in SELECT and HAVING, not inside one
    another, and only in a query with a window; GROUP BY and HAVING need a window, and a
    window has no use for `SELECT *`.
  * Windows (`checkWindow`): the policy is valid and the unit of the event time is known.

  `Query.validate` runs all checks in this order and reports the first fault.
-/
import StreamSql.Expr.Compiled
import StreamSql.Time.EventTime

namespace StreamSql

/-! ## Calls -/

/-- The tree reads no column, calls nothing and refers to no aggregate. -/
def Expr.isConstant (e : Expr) : Bool :=
  e.subterms.all fun
    | .column _ | .call _ _ | .slot _ => false
    | _ => true

/-- The value of a constant parameter of an aggregate. -/
def parameterValue (r : Registry) (name : String) (arg : Expr) : Except QueryError Value :=
  if arg.isConstant then
    match arg.eval { record := {}, registry := r } with
    | .ok v => .ok v
    | .error e =>
      .error (.validation (.invalidParameter arg.render (Text.upper name) e.message))
  else
    .error (.validation (.parameterNotConstant arg.render (Text.upper name)))

/-- The values of the parameters, which follow the input of the aggregate. -/
def parameterValues (r : Registry) (name : String) (args : List Expr) :
    Except QueryError (List Value) :=
  (args.drop 1).mapM (parameterValue r name)

/-- The numbers of arguments match. -/
def checkArguments (r : Registry) (name : String) (n : Nat) : Except QueryError Unit :=
  match r.arity? name with
  | none => .ok ()
  | some arity =>
    if arity.accepts n then .ok () else .error (.validation (.arity (Text.upper name) arity n))

/-- An aggregate accepts its parameters. -/
def checkParameters (r : Registry) (name : String) (args : List Expr) : Except QueryError Unit :=
  match r.aggregate? name with
  | none => .ok ()
  | some f => do
    let parameters ← parameterValues r name args
    let _ ← f.create parameters
    return ()

/-- A call in a clause is valid. -/
def checkCall (r : Registry) (clause : String) (call : String × List Expr) :
    Except QueryError Unit :=
  let (name, args) := call
  if WindowSpec.isConstructor name then
    .error (.validation (.windowOutsideGroupBy name clause))
  else if (WindowBound.ofName? name).isSome then
    if args.isEmpty then .ok () else .error (.validation (.contextArguments (Text.upper name)))
  else if r.contains name then do
    checkArguments r name args.length
    checkParameters r name args
  else
    .error (.validation (.unknownFunction (Text.upper name) clause))

/-- All calls of an expression are valid. -/
def checkCalls (r : Registry) (clause : String) (e : Expr) : Except QueryError Unit :=
  e.calls.forM (checkCall r clause)

/-! ## Aggregates -/

/-- The name of the first aggregate that an expression calls. -/
def firstAggregate? (r : Registry) (e : Expr) : Option String :=
  (e.calls.find? fun call => r.isAggregate call.1).map fun call => Text.upper call.1

/-- An aggregate inside an argument of another one: the outer and the inner name. -/
def nestedAggregate? (r : Registry) (e : Expr) : Option (String × String) :=
  e.calls.findSome? fun (name, args) =>
    if r.isAggregate name then
      (args.findSome? (firstAggregate? r)).map fun inner => (Text.upper name, inner)
    else
      none

/-- No aggregate stands inside another one. -/
def checkNesting (r : Registry) (e : Expr) : Except QueryError Unit :=
  match nestedAggregate? r e with
  | some (outer, inner) => .error (.validation (.nestedAggregate inner outer))
  | none => .ok ()

/-- An expression without aggregates. -/
def checkPlain (r : Registry) (fault : String → ValidationFault) (e : Expr) :
    Except QueryError Unit :=
  match firstAggregate? r e with
  | some name => .error (.validation (fault name))
  | none => .ok ()

namespace Query

/-- The query calls an aggregate in SELECT or HAVING. -/
def hasAggregates (q : Query) (r : Registry) : Bool :=
  (q.selected ++ q.having.toList).any (Expr.hasCall r.isAggregate)

/-- What only a windowed query may do. -/
def windowNeeded? (q : Query) (r : Registry) : Option ValidationFault :=
  if q.hasAggregates r then some .aggregateWithoutWindow
  else if !q.groupBy.isEmpty then some .groupByWithoutWindow
  else if q.having.isSome then some .havingWithoutWindow
  else none

/-- The query selects all fields of the record. -/
def hasWildcard (q : Query) : Bool :=
  q.fields.any fun
    | .wildcard => true
    | .column _ _ => false

/-- What fits neither with a window nor without one. -/
def windowFault? (q : Query) (r : Registry) : Option ValidationFault :=
  match q.window with
  | none => q.windowNeeded? r
  | some _ => if q.hasWildcard then some .wildcardInWindow else none

/-- The aggregates of the query are in their places. -/
def checkAggregates (q : Query) (r : Registry) : Except QueryError Unit := do
  q.condition.toList.forM (checkPlain r .aggregateInWhere)
  q.groupBy.forM (checkPlain r .aggregateInGroupBy)
  (q.selected ++ q.having.toList).forM (checkNesting r)
  match q.windowFault? r with
  | some fault => .error (.validation fault)
  | none => return ()

/-! ## The query -/

/-- The window and the event time of the query are valid. -/
def checkWindow (q : Query) : Except QueryError Unit := do
  q.window.toList.forM WindowSpec.check
  let _ ← EventTime.unitOf q
  if q.timeUnit.isSome ∧ q.timestampField.isNone then
    .error (.validation .timeUnitWithoutTimestamp)
  else
    return ()

/-- The query has a source and columns. -/
def checkShape (q : Query) : Except QueryError Unit :=
  if Text.trim q.source = "" then .error (.validation .noSource)
  else if q.fields.isEmpty then .error (.validation .noColumns)
  else .ok ()

/-- The first fault of the query, if it has one. -/
def validate (q : Query) (r : Registry) : Except QueryError Unit := do
  q.checkShape
  q.selected.forM (checkCalls r "SELECT")
  q.condition.toList.forM (checkCalls r "WHERE")
  q.groupBy.forM (checkCalls r "GROUP BY")
  q.having.toList.forM (checkCalls r "HAVING")
  q.checkAggregates r
  q.checkWindow

end Query

end StreamSql
