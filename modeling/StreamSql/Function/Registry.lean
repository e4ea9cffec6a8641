/-
  The registry of functions.

  Functions are entered under their names in upper case and found in any case.  No entry is
  ever replaced (`register` refuses a name that is taken).  Scalar functions and aggregates
  have separate tables.

  * `Registry.call r name args`: the value of a scalar function;
  * `Registry.aggregate? r name`: the aggregate of this name;
  * `Registry.checkArity r name n`: whether the function takes `n` arguments.
-/
import StreamSql.Aggregate

namespace StreamSql

/-- A function of values. -/
structure ScalarFunction where
  arity : Arity
  run : List Value → Except QueryError Value

/-- An aggregate: an accumulator for the constant parameters of a call. -/
structure AggregateFunction where
  arity : Arity
  create : List Value → Except QueryError Accumulator

/-- The functions that expressions may call. -/
structure Registry where
  scalars : Table ScalarFunction := []
  aggregates : Table AggregateFunction := []

namespace Registry

/-- The scalar function of this name. -/
def scalar? (r : Registry) (name : String) : Option ScalarFunction :=
  r.scalars.get? (Text.upper name)

/-- The aggregate of this name. -/
def aggregate? (r : Registry) (name : String) : Option AggregateFunction :=
  r.aggregates.get? (Text.upper name)

/-- The name is that of an aggregate. -/
def isAggregate (r : Registry) (name : String) : Bool :=
  (r.aggregate? name).isSome

/-- The name is known. -/
def contains (r : Registry) (name : String) : Bool :=
  (r.scalar? name).isSome || r.isAggregate name

/-- The numbers of arguments that the function takes. -/
def arity? (r : Registry) (name : String) : Option Arity :=
  match r.scalar? name with
  | some f => some f.arity
  | none => (r.aggregate? name).map AggregateFunction.arity

/-- The function takes `n` arguments. -/
def checkArity (r : Registry) (name : String) (n : Nat) : Except QueryError Unit :=
  match r.arity? name with
  | none => .error (.unknownFunction (Text.upper name))
  | some arity =>
    if arity.accepts n then .ok () else .error (.execution (.arity (Text.upper name) arity n))

/-- The value of a scalar function. -/
def call (r : Registry) (name : String) (args : List Value) : Except QueryError Value :=
  match r.scalar? name with
  | some f =>
    if f.arity.accepts args.length then f.run args
    else .error (.execution (.arity (Text.upper name) f.arity args.length))
  | none =>
    if r.isAggregate name then .error (.execution (.aggregateOnRecord (Text.upper name)))
    else .error (.unknownFunction (Text.upper name))

/-- A name that is taken is refused. -/
def claimName (r : Registry) (name : String) : Except QueryError String :=
  if r.contains name then .error (.configuration (.alreadyRegistered (Text.upper name)))
  else .ok (Text.upper name)

/-- A scalar function entered under a new name. -/
def registerScalar (r : Registry) (name : String) (f : ScalarFunction) :
    Except QueryError Registry := do
  let key ← r.claimName name
  return { r with scalars := r.scalars.insert key f }

/-- An aggregate entered under a new name. -/
def registerAggregate (r : Registry) (name : String) (f : AggregateFunction) :
    Except QueryError Registry := do
  let key ← r.claimName name
  return { r with aggregates := r.aggregates.insert key f }

/-- All names in order. -/
def names (r : Registry) : List String :=
  (r.scalars.map Prod.fst ++ r.aggregates.map Prod.fst).mergeSort fun a b => a ≤ b

/-- The registry in words. -/
def describe (r : Registry) : String :=
  "FunctionRegistry \x7b scalars: " ++ toString r.scalars.length ++ ", aggregates: "
    ++ toString r.aggregates.length ++ " \x7d"

end Registry

end StreamSql
