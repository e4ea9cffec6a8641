/-
  The catalog of functions that every registry starts from.

  * `Definition`: a function with its name, its further names and its category;
  * `catalog time`: all definitions; `time` is what NOW answers;
  * `Registry.standard time`: the registry of the catalog.
-/
import StreamSql.Function.Registry
import StreamSql.Function.Scalar
import StreamSql.Value.Tagged

namespace StreamSql

/-- What a function is about. -/
inductive Category where
  | aggregate | statistical | text | math | dateTime | conditional | conversion
  deriving DecidableEq, Repr

/-- The name of a category. -/
def Category.name : Category → String
  | aggregate => "Aggregate" | statistical => "Statistical" | text => "String"
  | math => "Math" | dateTime => "DateTime" | conditional => "Conditional"
  | conversion => "Conversion"

/-- What a function does. -/
inductive Behaviour where
  | scalar (run : List Value → Except QueryError Value)
  | aggregate (create : List Value → Except QueryError Accumulator)

/-- A function of the catalog. -/
structure Definition where
  name : String
  aliases : List String
  category : Category
  arity : Arity
  behaviour : Behaviour

namespace Definition

/-- All names of the function. -/
def names (d : Definition) : List String := d.name :: d.aliases

/-- The function is an aggregate. -/
def isAggregate (d : Definition) : Bool :=
  match d.behaviour with
  | .aggregate _ => true
  | .scalar _ => false

end Definition

namespace Catalog

/-- The fraction of PERCENTILE: one number from 0 to 1. -/
def fraction (parameters : List Value) : Except QueryError Double :=
  let refused : Except QueryError Double :=
    .error (.validation (.fractionExpected (Value.taggedList parameters)))
  match parameters with
  | [v] =>
    match v.float? with
    | some p => if 0.0 ≤ p ∧ p ≤ 1.0 then .ok p else refused
    | none => refused
  | _ => refused

/-- A scalar function. -/
def scalar (name : String) (aliases : List String) (category : Category) (least : Nat)
    (most : Option Nat) (run : List Value → Except QueryError Value) : Definition :=
  ⟨name, aliases, category, ⟨least, most⟩, .scalar run⟩

/-- An aggregate without parameters, given by its first accumulator. -/
def aggregate (name : String) (aliases : List String) (category : Category) (least : Nat)
    (start : Accumulator) : Definition :=
  ⟨name, aliases, category, ⟨least, some 1⟩, .aggregate fun _ => .ok start⟩

/-- The scalar functions; `time` is what NOW answers. -/
def scalars (time : Int64) : List Definition := [
  scalar "ABS" [] .math 1 (some 1) Scalar.abs,
  scalar "ROUND" [] .math 1 (some 2) Scalar.round,
  scalar "CEIL" ["CEILING"] .math 1 (some 1) (Scalar.integral "CEIL" FloatParts.ceiling),
  scalar "FLOOR" [] .math 1 (some 1) (Scalar.integral "FLOOR" FloatParts.floor),
  scalar "SQRT" [] .math 1 (some 1) Scalar.sqrt,
  scalar "POWER" ["POW"] .math 2 (some 2) Scalar.power,
  scalar "MOD" [] .math 2 (some 2) Scalar.mod,
  scalar "UPPER" ["UCASE"] .text 1 (some 1) (Scalar.ofText "UPPER" Text.upper),
  scalar "LOWER" ["LCASE"] .text 1 (some 1) (Scalar.ofText "LOWER" Text.lower),
  scalar "LENGTH" ["LEN", "CHAR_LENGTH"] .text 1 (some 1) Scalar.length,
  scalar "TRIM" [] .text 1 (some 1) (Scalar.ofText "TRIM" Text.trim),
  scalar "CONCAT" [] .text 1 none Scalar.concat,
  scalar "SUBSTRING" ["SUBSTR"] .text 2 (some 3) Scalar.substring,
  scalar "REPLACE" [] .text 3 (some 3) Scalar.replace,
  scalar "COALESCE" ["IFNULL"] .conditional 1 none Scalar.coalesce,
  scalar "NULLIF" [] .conditional 2 (some 2) Scalar.nullIf,
  scalar "GREATEST" [] .conditional 1 none Scalar.greatest,
  scalar "LEAST" [] .conditional 1 none Scalar.least,
  scalar "TO_STRING" [] .conversion 1 (some 1) Scalar.toText,
  scalar "TO_NUMBER" [] .conversion 1 (some 1) Scalar.toNumber,
  scalar "NOW" ["CURRENT_TIMESTAMP"] .dateTime 0 (some 0) (Scalar.now time)]

/-- The aggregates. -/
def aggregates : List Definition := [
  aggregate "COUNT" [] .aggregate 0 (.count 0),
  aggregate "SUM" [] .aggregate 1 (.sum 0.0 false),
  aggregate "AVG" [] .aggregate 1 (.average .empty),
  aggregate "MIN" [] .aggregate 1 (.extremum .lt none),
  aggregate "MAX" [] .aggregate 1 (.extremum .gt none),
  aggregate "FIRST_VALUE" ["FIRST"] .aggregate 1 (.first none),
  aggregate "LAST_VALUE" ["LAST"] .aggregate 1 (.last none),
  aggregate "COLLECT" ["ARRAY_AGG"] .aggregate 1 (.collect []),
  aggregate "STDDEV" ["STDDEV_SAMP"] .statistical 1 (.dispersion true true .empty),
  aggregate "STDDEV_POP" [] .statistical 1 (.dispersion false true .empty),
  aggregate "VARIANCE" ["VAR_SAMP"] .statistical 1 (.dispersion true false .empty),
  aggregate "VAR_POP" [] .statistical 1 (.dispersion false false .empty),
  aggregate "MEDIAN" [] .statistical 1 (.percentile 0.5 []),
  ⟨"PERCENTILE", ["PERCENTILE_CONT"], .statistical, .exactly 2,
    .aggregate fun parameters => do return .percentile (← fraction parameters) []⟩]

/-- The whole catalog. -/
def all (time : Int64) : List Definition :=
  scalars time ++ aggregates

end Catalog

namespace Registry

/-- A function entered under all its names. -/
def enter (r : Registry) (d : Definition) : Registry :=
  d.names.foldl
    (fun r name =>
      let key := Text.upper name
      match d.behaviour with
      | .scalar run => { r with scalars := r.scalars.insert key ⟨d.arity, run⟩ }
      | .aggregate create => { r with aggregates := r.aggregates.insert key ⟨d.arity, create⟩ })
    r

/-- The registry of the catalog. -/
def standard (time : Int64) : Registry :=
  (Catalog.all time).foldl enter {}

end Registry

end StreamSql
