/-
  Order and equality of values.

  * `compare a b`: two texts by code points, two truth values with false first, and
    numerically as soon as one side is a number; anything else is a mismatch, and so is
    not a number;
  * `sqlEquals a b`: two integers exactly, numerically as soon as one side is a number,
    and otherwise only within one kind;
  * `keyEq a b`: the equality of keys, in which floats are compared by their bits and all
    forms of not a number are one;
  * `same a b`: the equality of values with the equality of floats, in which not a number
    differs from itself;
  * `isTruthy v`: a condition with this value holds.
-/
import StreamSql.Text.Case
import StreamSql.Value

namespace StreamSql.Value

/-- The order of two values that are compared as numbers. -/
def compareNumeric (a b : Value) : Except QueryError Ordering :=
  match a.float?, b.float? with
  | some x, some y =>
    match x.compare? y with
    | some order => .ok order
    | none => .error (.mismatch .comparableNumbers .notANumber (some (FloatText.plain x)))
  | _, _ => mismatch (.comparableWith a.kind) b

/-- The order of two values that are not NULL. -/
def compare (a b : Value) : Except QueryError Ordering :=
  match a, b with
  | text s, text t => .ok (Ord.compare s t)
  | boolean p, boolean q => .ok (Ord.compare p.toNat q.toNat)
  | a, b =>
    if a.isNumeric || b.isNumeric then compareNumeric a b
    else mismatch (.comparableWith a.kind) b

/-- Two values are numerically equal. -/
def equalNumeric (a b : Value) : Bool :=
  match a.float?, b.float? with
  | some x, some y => x == y
  | _, _ => false

mutual

/-- The equality of two values that are not NULL. -/
def sqlEquals : Value → Value → Bool
  | integer a, integer b => a = b
  | text s, text t => s = t
  | boolean p, boolean q => p = q
  | array as, array bs => sqlEqualsItems as bs
  | map as, map bs => as.length = bs.length && sqlEqualsFields as bs
  | a, b => (a.isNumeric || b.isNumeric) && equalNumeric a b

/-- The lists are equal item by item. -/
def sqlEqualsItems : List Value → List Value → Bool
  | [], [] => true
  | a :: as, b :: bs => sqlEquals a b && sqlEqualsItems as bs
  | _, _ => false

/-- Every row has an equal row of its name in the other table. -/
def sqlEqualsFields : Table Value → Table Value → Bool
  | [], _ => true
  | (name, a) :: rest, bs =>
    (match bs.get? name with
      | some b => sqlEquals a b
      | none => false) && sqlEqualsFields rest bs

end

/-- The floats have the same bits, or neither is a number. -/
def sameBits (x y : Double) : Bool :=
  (x.isNaN && y.isNaN) || x.bits == y.bits

mutual

/-- The equality of keys. -/
def keyEq : Value → Value → Bool
  | integer a, integer b => a = b
  | float x, float y => sameBits x y
  | text s, text t => s = t
  | boolean p, boolean q => p = q
  | null, null => true
  | array as, array bs => keyEqItems as bs
  | map as, map bs => as.length = bs.length && keyEqFields as bs
  | _, _ => false

/-- The lists are equal item by item. -/
def keyEqItems : List Value → List Value → Bool
  | [], [] => true
  | a :: as, b :: bs => keyEq a b && keyEqItems as bs
  | _, _ => false

/-- Every row has an equal row of its name in the other table. -/
def keyEqFields : Table Value → Table Value → Bool
  | [], _ => true
  | (name, a) :: rest, bs =>
    (match bs.get? name with
      | some b => keyEq a b
      | none => false) && keyEqFields rest bs

end

mutual

/-- The equality of values, floats compared as numbers. -/
def same : Value → Value → Bool
  | integer a, integer b => a = b
  | float x, float y => x == y
  | text s, text t => s = t
  | boolean p, boolean q => p = q
  | null, null => true
  | array as, array bs => sameItems as bs
  | map as, map bs => as.length = bs.length && sameFields as bs
  | _, _ => false

/-- The lists are equal item by item. -/
def sameItems : List Value → List Value → Bool
  | [], [] => true
  | a :: as, b :: bs => same a b && sameItems as bs
  | _, _ => false

/-- Every row has an equal row of its name in the other table. -/
def sameFields : Table Value → Table Value → Bool
  | [], _ => true
  | (name, a) :: rest, bs =>
    (match bs.get? name with
      | some b => same a b
      | none => false) && sameFields rest bs

end

/-- A condition with this value holds: a number that is not zero, a text that is neither
    empty nor `false` in any case; never NULL, an array or a map. -/
def isTruthy : Value → Bool
  | boolean b => b
  | integer n => n ≠ 0
  | float x => x != 0.0
  | text s => s ≠ "" && !Text.sameAscii s "false"
  | null | array _ | map _ => false

end StreamSql.Value
