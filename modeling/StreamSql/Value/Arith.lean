/-
  Arithmetic on values.

  NULL on either side gives NULL.  Two integers give the exact integer where it fits a
  word and otherwise the float result; division always gives a float.  A divisor that is
  zero is an error.
-/
import StreamSql.Value

namespace StreamSql.Value

/-- The operators that promote an integer result out of range to a float. -/
inductive ArithOp where
  | add | subtract | multiply
  deriving DecidableEq, Repr

namespace ArithOp

/-- The symbol of the operator. -/
def symbol : ArithOp → String
  | add => "+" | subtract => "-" | multiply => "*"

/-- The operation on integers. -/
def onInt : ArithOp → Int → Int → Int
  | add, a, b => a + b
  | subtract, a, b => a - b
  | multiply, a, b => a * b

/-- The operation on floats. -/
def onFloat : ArithOp → Double → Double → Double
  | add, x, y => x + y
  | subtract, x, y => x - y
  | multiply, x, y => x * y

/-- The operation on numbers: integers as long as the result is a word. -/
def onNumbers (op : ArithOp) : Number → Number → Number
  | .integer a, .integer b =>
    match Word.ofInt? (op.onInt a.toInt b.toInt) with
    | some n => .integer n
    | none => .float (op.onFloat (.ofWord a) (.ofWord b))
  | a, b => .float (op.onFloat a.toDouble b.toDouble)

end ArithOp

/-- Addition, subtraction and multiplication. -/
def arith (op : ArithOp) (a b : Value) : Except QueryError Value :=
  if a.isNull || b.isNull then
    .ok null
  else
    match a.number?, b.number? with
    | some m, some n => .ok (op.onNumbers m n).toValue
    | _, _ =>
      .error (.mismatch (.numericOperands op.symbol) (.kinds a.kind b.kind)
        (some (a.render ++ " " ++ op.symbol ++ " " ++ b.render)))

/-- Division. -/
def divide (a b : Value) : Except QueryError Value :=
  if a.isNull || b.isNull then
    .ok null
  else do
    let m ← a.toNumber
    let n ← b.toNumber
    if n.toDouble == 0.0 then .error (.execution .divisionByZero)
    else return .float (m.toDouble / n.toDouble)

/-- The remainder of two numbers, with the sign of the dividend. -/
def remainderOf : Number → Number → Except QueryError Number
  | .integer a, .integer b =>
    if b = 0 then .error (.execution .moduloByZero)
    else if a.toInt = Word.least ∧ b.toInt = -1 then
      .ok (.float (remainder (.ofWord a) (.ofWord b)))
    else .ok (.integer (Int64.ofInt (a.toInt.tmod b.toInt)))
  | m, n =>
    if n.toDouble == 0.0 then .error (.execution .moduloByZero)
    else .ok (.float (remainder m.toDouble n.toDouble))

/-- The remainder of a division. -/
def modulo (a b : Value) : Except QueryError Value :=
  if a.isNull || b.isNull then
    .ok null
  else do
    let m ← a.toNumber
    let n ← b.toNumber
    return (← remainderOf m n).toValue

/-- The negative of a number. -/
def negateNumber : Number → Number
  | .integer n =>
    match Word.ofInt? (-n.toInt) with
    | some m => .integer m
    | none => .float (-Double.ofWord n)
  | .float x => .float (-x)

/-- The negative of a value. -/
def negate (v : Value) : Except QueryError Value :=
  if v.isNull then .ok null
  else do
    let n ← v.toNumber
    return (negateNumber n).toValue

end StreamSql.Value
