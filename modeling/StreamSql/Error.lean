/-
  The failures of the library, each given by its cause.

  A `QueryError` belongs to one of nine classes.  A class with several causes has an
  inductive type of them (`ParseFault`, `ValidationFault`, …); a mismatch of types names
  what was expected (`Expectation`) and what was found (`Found`).  The wording is kept in
  one function per type, and `QueryError.message` puts the class in front.
-/
import StreamSql.Token.Kind
import StreamSql.Function.Arity
import StreamSql.Value.Kind

namespace StreamSql

/-! ## Causes of each class -/

/-- Why a text is not a query, an expression or a duration. -/
inductive ParseFault where
  | unterminatedComment
  | unterminatedText
  | loneExclamation
  | loneBar
  | unexpectedCharacter (c : Char) (position : Nat)
  | nullExpected (negated : Bool)
  | listExpected
  | listSeparatorExpected
  | betweenAndExpected
  | invalidNumber (text : String)
  | endOfExpression
  | unexpectedToken (kind : TokenKind) (text : String)
  | caseWithoutWhen
  | kindExpected (wanted found : TokenKind) (text : String)
  | identifierExpected (found : TokenKind) (text : String)
  | trailingInput (text : String)
  | aliasExpected (text : String)
  | limitNotNatural (text : String)
  | propertyNameExpected
  | propertyValueExpected
  | emptyDuration
  | invalidDuration (text : String)
  | unknownDurationUnit (unit text : String)
  deriving DecidableEq, Repr

/-- Why a query is refused although it is well formed. -/
inductive ValidationFault where
  | secondWindow (position : Nat)
  | noSource
  | noColumns
  | windowOutsideGroupBy (name clause : String)
  | contextArguments (name : String)
  | unknownFunction (name clause : String)
  | arity (name : String) (arity : Arity) (got : Nat)
  | parameterNotConstant (parameter name : String)
  | invalidParameter (parameter name cause : String)
  | fractionExpected (parameters : String)
  | aggregateInWhere (name : String)
  | aggregateInGroupBy (name : String)
  | nestedAggregate (inner outer : String)
  | aggregateWithoutWindow
  | groupByWithoutWindow
  | havingWithoutWindow
  | wildcardInWindow
  | unknownTimeUnit (code : String)
  | timeUnitWithoutTimestamp
  deriving DecidableEq, Repr

/-- Why an evaluation fails. -/
inductive ExecutionFault where
  | divisionByZero
  | moduloByZero
  | invalidJson
  | listOutsideIn
  | inWithoutList (expression : String)
  | missingAggregate (slot : Nat)
  | contextArguments (name : String)
  | arity (name : String) (arity : Arity) (got : Nat)
  | aggregateOnRecord (name : String)
  | argumentCount (name : String) (got : Nat)
  | negativeRoot
  | patternTooLarge (pattern : String) (limit : Nat)
  | timeFieldMissing (field : String)
  deriving DecidableEq, Repr

/-- What a mismatch of types asked for. -/
inductive Expectation where
  | number
  | numericOperands (symbol : String)
  | comparableNumbers
  | comparableWith (kind : ValueKind)
  | jsonObject
  | booleanOperand (symbol : String)
  | likePattern
  | numericArgument (function : String)
  | textArgument (function : String)
  | integerArgument (function : String)
  | aggregateInput
  | timestamp (field : String)
  deriving DecidableEq, Repr

/-- What a mismatch of types met. -/
inductive Found where
  | kind (kind : ValueKind)
  | kinds (left right : ValueKind)
  | notANumber
  | nonNumericText
  | unparsableText
  deriving DecidableEq, Repr

/-- Why a configuration or a registration is refused. -/
inductive ConfigurationFault where
  | alreadyRegistered (name : String)
  | emptyQueue
  | zeroTick
  | negativeLateness
  | unknownPolicy (text : String)
  | unreadable
  | unwritable
  | alreadyRunning
  | noRuntime
  deriving DecidableEq, Repr

/-- Why a window is refused; durations are given in words. -/
inductive WindowFault where
  | arguments (name : String) (wanted got : Nat)
  | invalidCount (text : String)
  | countExpected (expression : String)
  | duration (fault : ParseFault)
  | durationExpected (expression : String)
  | zeroDuration
  | unknownWindow (name : String)
  | sizeTooSmall (size : String)
  | sizeOrSlideTooSmall (size slide : String)
  | slideExceedsSize (slide size : String)
  | zeroCount
  | gapTooSmall (gap : String)
  deriving DecidableEq, Repr

/-- Why a stream takes no operation. -/
inductive StreamFault where
  | notRunning
  | stopped
  deriving DecidableEq, Repr

/-- A failure of the library. -/
inductive QueryError where
  | parse (fault : ParseFault) (position : Option Nat)
  | validation (fault : ValidationFault)
  | execution (fault : ExecutionFault)
  | mismatch (expected : Expectation) (found : Found) (value : Option String)
  | unknownFunction (name : String)
  | nestedCase (position : Nat)
  | configuration (fault : ConfigurationFault)
  | window (fault : WindowFault) (windowType : String)
  | stream (fault : StreamFault)
  deriving DecidableEq, Repr

/-! ## Wording -/

/-- A refused number of arguments. -/
def Arity.refusal (name : String) (arity : Arity) (got : Nat) : String :=
  s!"{name} expects {arity.describe} argument(s), got {got}"

/-- The wording of a parse fault. -/
def ParseFault.message : ParseFault → String
  | unterminatedComment => "Unterminated multi-line comment"
  | unterminatedText => "Unterminated string literal"
  | loneExclamation => "Unexpected character '!' - did you mean '!='?"
  | loneBar => "Unexpected character '|' - did you mean '||' for concatenation?"
  | unexpectedCharacter c position => s!"Unexpected character '{c}' at position {position}"
  | nullExpected true => "Expected NULL after IS NOT"
  | nullExpected false => "Expected NULL after IS"
  | listExpected => "Expected '(' after IN"
  | listSeparatorExpected => "Expected ',' or ')' in IN list"
  | betweenAndExpected => "Expected AND in BETWEEN expression"
  | invalidNumber text => s!"Invalid number '{text}'"
  | endOfExpression => "Unexpected end of expression"
  | unexpectedToken kind text => s!"Unexpected token {kind.name} '{text}' in expression"
  | caseWithoutWhen => "CASE expression must have at least one WHEN clause"
  | kindExpected wanted found text =>
    s!"Expected {wanted.name}, found {found.name} '{text}'"
  | identifierExpected found text => s!"Expected identifier, found {found.name} '{text}'"
  | trailingInput text => s!"Unexpected trailing input starting at '{text}'"
  | aliasExpected text => s!"Expected alias after AS, found '{text}'"
  | limitNotNatural text => s!"LIMIT must be a non-negative integer, got '{text}'"
  | propertyNameExpected => "Expected property name in WITH clause"
  | propertyValueExpected => "Expected property value in WITH clause"
  | emptyDuration => "Empty duration"
  | invalidDuration text => s!"Invalid duration '{text}'"
  | unknownDurationUnit unit text => s!"Unknown duration unit '{unit}' in '{text}'"

/-- The wording of a refused query. -/
def ValidationFault.message : ValidationFault → String
  | secondWindow position =>
    s!"GROUP BY may contain at most one window (second window at position {position})"
  | noSource => "Query has no source (FROM)"
  | noColumns => "Query selects no columns"
  | windowOutsideGroupBy name clause =>
    s!"{name} is only allowed in GROUP BY, found in {clause}"
  | contextArguments name => s!"{name}() takes no arguments"
  | unknownFunction name clause => s!"Unknown function '{name}' in {clause}"
  | arity name accepted got => "Execution error: " ++ accepted.refusal name got
  | parameterNotConstant parameter name =>
    s!"Parameter {parameter} of {name} must be a constant"
  | invalidParameter parameter name cause =>
    s!"Invalid parameter {parameter} of {name}: {cause}"
  | fractionExpected parameters =>
    s!"PERCENTILE requires a literal fraction between 0 and 1, got {parameters}"
  | aggregateInWhere name =>
    s!"Aggregate function {name} is not allowed in WHERE; use HAVING"
  | aggregateInGroupBy name => s!"Aggregate function {name} is not allowed in GROUP BY"
  | nestedAggregate inner outer =>
    s!"Aggregate function {inner} cannot be nested inside {outer}"
  | aggregateWithoutWindow =>
    "Aggregate functions require a window in GROUP BY, e.g. TumblingWindow('1m')"
  | groupByWithoutWindow =>
    "GROUP BY requires a window, e.g. GROUP BY key, CountingWindow(100)"
  | havingWithoutWindow => "HAVING requires an aggregated (windowed) query"
  | wildcardInWindow =>
    "SELECT * cannot be used in a windowed query; list the output columns"
  | unknownTimeUnit code => s!"Invalid TIMEUNIT '{code}'"
  | timeUnitWithoutTimestamp => "TIMEUNIT requires TIMESTAMP in the WITH clause"

/-- The wording of a failed evaluation. -/
def ExecutionFault.message : ExecutionFault → String
  | divisionByZero => "Division by zero"
  | moduloByZero => "Modulo by zero"
  | invalidJson => "Invalid JSON record"
  | listOutsideIn => "A value list is only valid on the right of IN"
  | inWithoutList expression => s!"IN requires a value list, got {expression}"
  | missingAggregate slot => s!"Aggregate result {slot} is not available here"
  | contextArguments name => s!"{name} takes no arguments"
  | arity name accepted got => accepted.refusal name got
  | aggregateOnRecord name =>
    s!"Aggregate function {name} cannot be evaluated on a single record"
  | argumentCount name got => s!"{name} called with {got} argument(s)"
  | negativeRoot => "SQRT cannot be applied to negative numbers"
  | patternTooLarge pattern limit =>
    s!"Invalid LIKE pattern '{pattern}': Compiled regex exceeds size limit of {limit} bytes."
  | timeFieldMissing field => s!"Time field '{field}' not found in record"

/-- An expectation in words. -/
def Expectation.text : Expectation → String
  | number => "number"
  | numericOperands symbol => s!"numeric operands for '{symbol}'"
  | comparableNumbers => "comparable numbers"
  | comparableWith kind => s!"value comparable with {kind.name}"
  | jsonObject => "JSON object"
  | booleanOperand symbol => s!"boolean operand for {symbol}"
  | likePattern => "string pattern for LIKE"
  | numericArgument function => s!"numeric argument for {function}"
  | textArgument function => s!"string argument for {function}"
  | integerArgument function => s!"integer argument for {function}"
  | aggregateInput => "numeric aggregate input"
  | timestamp field => s!"timestamp in field '{field}'"

/-- What was found, in words. -/
def Found.text : Found → String
  | kind k => k.name
  | kinds left right => s!"{left.name} and {right.name}"
  | notANumber => "NaN"
  | nonNumericText => "non-numeric string"
  | unparsableText => "unparsable string"

/-- The wording of a refused configuration. -/
def ConfigurationFault.message : ConfigurationFault → String
  | alreadyRegistered name => s!"Function {name} is already registered"
  | emptyQueue => "result_queue_capacity must be greater than 0"
  | zeroTick => "tick_interval_ms must be greater than 0"
  | negativeLateness => "max_out_of_orderness_ms must not be negative"
  | unknownPolicy text =>
    s!"Unknown projection_error_policy '{text}', expected 'null' or 'zero'"
  | unreadable => "Invalid engine configuration"
  | unwritable => "Failed to serialize configuration"
  | alreadyRunning => "Engine is already running a query"
  | noRuntime => "execute must be called within a Tokio runtime"

/-- The place of a parse fault. -/
def placeText : Option Nat → String
  | some position => s!" at position {position}"
  | none => ""

/-- The wording of a parse error, with its place. -/
def ParseFault.report (fault : ParseFault) (position : Option Nat) : String :=
  s!"Parse error{placeText position}: {fault.message}"

/-- The wording of a refused window. -/
def WindowFault.message : WindowFault → String
  | arguments name wanted got => s!"{name} expects {wanted} argument(s), got {got}"
  | invalidCount text => s!"Invalid window count '{text}'"
  | countExpected expression =>
    s!"Window count must be a positive integer, got {expression}"
  | duration fault => fault.report none
  | durationExpected expression =>
    s!"Window duration must be a string such as '5s', got {expression}"
  | zeroDuration => "Window duration must be positive"
  | unknownWindow name => s!"Unknown window type '{name}'"
  | sizeTooSmall size => s!"Window size must be at least 1ms, got {size}"
  | sizeOrSlideTooSmall size slide =>
    s!"Window size and slide must be at least 1ms, got {size} and {slide}"
  | slideExceedsSize slide size => s!"Slide {slide} must not exceed window size {size}"
  | zeroCount => "Window count must be positive"
  | gapTooSmall gap => s!"Session gap must be at least 1ms, got {gap}"

/-- The wording of a refused operation. -/
def StreamFault.message : StreamFault → String
  | notRunning => "No query is running; call execute first"
  | stopped => "Engine has been stopped"

/-- The wording of a failure. -/
def QueryError.message : QueryError → String
  | parse fault position => fault.report position
  | validation fault => s!"Validation error: {fault.message}"
  | execution fault => s!"Execution error: {fault.message}"
  | mismatch expected found _ => s!"Type error: expected {expected.text}, got {found.text}"
  | unknownFunction name => s!"Unknown function: {name}"
  | nestedCase position =>
    s!"Unsupported expression: nested CASE expression at position {position}"
  | configuration fault => s!"Configuration error: {fault.message}"
  | window fault windowType => s!"Window error ({windowType}): {fault.message}"
  | stream fault => s!"Stream error: {fault.message}"

/-! ## Steps that can fail -/

/-- Two steps succeed if the first one does, and the second one after it. -/
theorem bind_eq_ok {α β : Type} {x : Except QueryError α} {f : α → Except QueryError β} {b : β} :
    x >>= f = .ok b ↔ ∃ a, x = .ok a ∧ f a = .ok b := by
  cases x with
  | error e => exact ⟨fun h => (nomatch h), fun ⟨_, h, _⟩ => nomatch h⟩
  | ok a => exact ⟨fun h => ⟨a, rfl, h⟩, fun ⟨_, h, h'⟩ => by cases h; exact h'⟩

/-- A result passed on. -/
theorem map_eq_ok {α β : Type} {x : Except QueryError α} {f : α → β} {b : β} :
    f <$> x = .ok b ↔ ∃ a, x = .ok a ∧ f a = b := by
  cases x with
  | error e => exact ⟨fun h => (nomatch h), fun ⟨_, h, _⟩ => nomatch h⟩
  | ok a =>
    exact ⟨fun h => ⟨a, rfl, Except.ok.inj h⟩, fun ⟨_, h, h'⟩ => by cases h; exact congrArg _ h'⟩

end StreamSql
