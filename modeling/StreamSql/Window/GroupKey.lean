/-
  Keys of groups.

  A key is the list of the values of the grouping expressions, which are proper.  It carries the
  digest of the values, so that two keys are compared value by value only when their digests
  agree.
-/
import StreamSql.Value.Digest
import StreamSql.Value.Distinct

namespace StreamSql

/-- The key of a group. -/
structure GroupKey where
  values : List Value
  digest : UInt64
  digest_eq : digest = Value.digestOfList values
  proper : ∀ v ∈ values, v.Proper

namespace GroupKey

/-- The key of these values, each with the rows that are found in it. -/
def ofValues (values : List Value) : GroupKey :=
  let distinct := Value.distinctItems values
  ⟨distinct, Value.digestOfList distinct, rfl, Value.proper_distinctItems values⟩

/-- The keys are of one group. -/
def same (a b : GroupKey) : Bool :=
  a.digest == b.digest && Value.keyEqItems a.values b.values

/-- The text of a key. -/
def render (k : GroupKey) : String :=
  "(" ++ ", ".intercalate (Value.renderItems k.values) ++ ")"

end GroupKey

end StreamSql
