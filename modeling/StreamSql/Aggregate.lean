/-
  Accumulators: the state of one aggregate over one group.

  * `Accumulator`: one constructor per state; `custom` keeps the accepted values and reads
    its result off them, and so stands for any aggregate from outside the catalog;
  * `Accumulator.add acc v`: one value more; a value that the aggregate does not take is an
    error and leaves no trace;
  * `Accumulator.result acc`: the value of the aggregate so far.

  NULL is never added.
-/
import StreamSql.Aggregate.Percentile
import StreamSql.Value.Compare

namespace StreamSql

/-- An aggregate given by what it makes of the values it accepts. -/
structure CustomAggregate where
  accepts : Value → Except QueryError Unit
  result : List Value → Value

/-- The state of one aggregate over one group. -/
inductive Accumulator where
  | count (n : Nat)
  | sum (total : Double) (seen : Bool)
  | average (moments : Moments Double)
  /-- the value that compares as `keep` with all others -/
  | extremum (keep : Ordering) (current : Option Value)
  /-- the variance, or its root, of a sample or a population -/
  | dispersion (sample root : Bool) (moments : Moments Double)
  | percentile (fraction : Double) (values : List Double)
  | collect (values : List Value)
  | first (value : Option Value)
  | last (value : Option Value)
  | custom (aggregate : CustomAggregate) (values : List Value)

namespace Accumulator

/-- The numeric input of an aggregate. -/
def numericInput (v : Value) : Except QueryError Double :=
  match v.float? with
  | some x => .ok x
  | none => v.mismatch .aggregateInput

/-- A value as a candidate for an extremum: integers count as floats. -/
def candidate : Value → Value
  | .integer n => .float (.ofWord n)
  | v => v

/-- The extremum of the current value and a candidate. -/
def better (keep : Ordering) (current : Option Value) (v : Value) : Except QueryError Value :=
  match current with
  | none => .ok v
  | some w => do return if (← v.compare w) = keep then v else w

/-- One value more. -/
def add (acc : Accumulator) (v : Value) : Except QueryError Accumulator :=
  match acc with
  | count n => .ok (count (n + 1))
  | sum total _ => do return sum (total + (← numericInput v)) true
  | average moments => do return average (moments.add (← numericInput v))
  | extremum keep current => do
    return extremum keep (some (← better keep current (candidate v)))
  | dispersion sample root moments => do
    return dispersion sample root (moments.add (← numericInput v))
  | percentile fraction values => do
    return percentile fraction (values ++ [← numericInput v])
  | collect values => .ok (collect (values ++ [v]))
  | first value => .ok (first (value.or (some v)))
  | last _ => .ok (last (some v))
  | custom aggregate values => do
    aggregate.accepts v
    return custom aggregate (values ++ [v])

/-- A float or NULL. -/
def floatOrNull : Option Double → Value
  | some x => .float x
  | none => .null

/-- The value of the aggregate so far. -/
def result : Accumulator → Value
  | count n => .float (.ofNat n)
  | sum total seen => if seen then .float total else .null
  | average moments => floatOrNull moments.mean?
  | extremum _ current => current.getD .null
  | dispersion sample root moments =>
    let variance := moments.variance? sample
    floatOrNull (if root then variance.map Double.sqrt else variance)
  | percentile fraction values => floatOrNull (percentile? fraction values)
  | collect values => if values.isEmpty then .null else .array values
  | first value => value.getD .null
  | last value => value.getD .null
  | custom aggregate values => aggregate.result values

/-- The value folded in if it is not NULL and the aggregate takes it. -/
def offer (acc : Accumulator) (v : Value) : Accumulator :=
  if v.isNull then acc
  else
    match acc.add v with
    | .ok acc' => acc'
    | .error _ => acc

end Accumulator

end StreamSql
