/-
  Window policies of a query.

  * `WindowSpec`: tumbling, sliding, counting and session windows;
  * `WindowSpec.ofCall? name args`: the policy that a call in GROUP BY names;
  * `WindowSpec.check`: its lengths reach a millisecond, its count is positive, and it
    does not slide further than its size.
-/
import StreamSql.Expr.Printer
import StreamSql.Time.Duration

namespace StreamSql

/-- A window policy. -/
inductive WindowSpec where
  | tumbling (size : Duration)
  | sliding (size slide : Duration)
  | counting (count : Nat)
  | session (gap : Duration)
  deriving DecidableEq, Repr

namespace WindowSpec

/-- The name of the policy. -/
def typeName : WindowSpec → String
  | tumbling _ => "TUMBLING"
  | sliding _ _ => "SLIDING"
  | counting _ => "COUNTING"
  | session _ => "SESSION"

/-- The windows close with time, not with the number of their records. -/
def isTimeBased : WindowSpec → Bool
  | counting _ => false
  | _ => true

/-! ## The calls that name a policy -/

/-- The names of the calls, in upper case. -/
def constructors : List String :=
  ["TUMBLINGWINDOW", "SLIDINGWINDOW", "COUNTINGWINDOW", "SESSIONWINDOW"]

/-- The name is that of a window call, in any case. -/
def isConstructor (name : String) : Bool :=
  constructors.contains (Text.upper name)

/-- A text without the word `WINDOW` at its end, however often it stands there. -/
def stemOf (name : List Char) : Nat → List Char
  | 0 => name
  | fuel + 1 =>
    if "WINDOW".toList.isSuffixOf name then stemOf (name.take (name.length - 6)) fuel else name

/-- The name of the policy that a call asks for, for messages. -/
def stem (name : String) : String :=
  let cs := (Text.upper name).toList
  String.ofList (stemOf cs cs.length)

/-- A positive duration given as a constant text. -/
def durationArgument (windowType : String) (arg : Expr) : Except QueryError Duration :=
  match arg with
  | .literal (.text text) =>
    match Duration.read text with
    | .error fault => .error (.window (.duration fault) windowType)
    | .ok d => if d.nanos = 0 then .error (.window .zeroDuration windowType) else .ok d
  | _ => .error (.window (.durationExpected arg.render) windowType)

/-- A positive count given as a constant integer or text. -/
def countArgument (windowType : String) (arg : Expr) : Except QueryError Nat :=
  match arg with
  | .literal (.text text) =>
    match Numeral.readNatural? (Text.trim text) with
    | some n => if n > 0 then .ok n else .error (.window (.invalidCount text) windowType)
    | none => .error (.window (.invalidCount text) windowType)
  | .literal (.integer n) =>
    if 0 < n.toInt then .ok n.toInt.toNat
    else .error (.window (.countExpected arg.render) windowType)
  | _ => .error (.window (.countExpected arg.render) windowType)

/-- The policy that a call names. -/
def ofCall? (name : String) (args : List Expr) : Except QueryError WindowSpec :=
  let windowType := stem name
  let refuse (wanted : Nat) : Except QueryError WindowSpec :=
    .error (.window (.arguments name wanted args.length) windowType)
  match Text.upper name with
  | "TUMBLINGWINDOW" =>
    match args with
    | [size] => tumbling <$> durationArgument windowType size
    | _ => refuse 1
  | "SLIDINGWINDOW" =>
    match args with
    | [size, slide] => do
      let size ← durationArgument windowType size
      let slide ← durationArgument windowType slide
      return sliding size slide
    | _ => refuse 2
  | "COUNTINGWINDOW" =>
    match args with
    | [count] => counting <$> countArgument windowType count
    | _ => refuse 1
  | "SESSIONWINDOW" =>
    match args with
    | [gap] => session <$> durationArgument windowType gap
    | _ => refuse 1
  | _ => .error (.window (.unknownWindow name) windowType)

/-! ## Validity -/

/-- Why the policy is refused. -/
def fault? : WindowSpec → Option WindowFault
  | tumbling size => if size.millis = 0 then some (.sizeTooSmall size.text) else none
  | sliding size slide =>
    if size.millis = 0 ∨ slide.millis = 0 then some (.sizeOrSlideTooSmall size.text slide.text)
    else if size.nanos < slide.nanos then some (.slideExceedsSize slide.text size.text)
    else none
  | counting count => if count = 0 then some .zeroCount else none
  | session gap => if gap.millis = 0 then some (.gapTooSmall gap.text) else none

/-- The policy is valid. -/
def check (spec : WindowSpec) : Except QueryError Unit :=
  match spec.fault? with
  | some fault => .error (.window fault spec.typeName)
  | none => .ok ()

end WindowSpec

end StreamSql
