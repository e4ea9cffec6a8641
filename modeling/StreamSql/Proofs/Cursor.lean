/-
  Reading expressions with a cursor.

  `Expr.readAt` takes the tokens that are left and returns those behind the expression, so it ends
  by its very definition.  Here the same grammar is read the way a machine does it: the tokens stay
  where they are, a cursor moves over them and stands still at the last one, and a counter says how
  many CASE expressions are open.  Nothing in these definitions makes sure that so many calls are
  enough, that the cursor moves or that every CASE is closed.

  * `Cursor`: the position and the counter;
  * `Walk α`: what a walk reads or why it refuses, with the cursor in both cases.  There is no
    outcome if the walk gets stuck: at a token that is not there, at an integer without a negative,
    or because it takes more calls than it may;
  * `walkAt tokens mode n level`: the walk over an expression of the level, with at most `n` calls
    inside one another.  A turn of a loop is a call inside the turn before it.
-/
import Mathlib.Data.Nat.Notation
import StreamSql.Expr.Parser

namespace StreamSql

namespace Expr

/-! ## Cursors and walks -/

/-- Which CASE expressions are read: only those that no other one encloses, or all. -/
inductive Mode where
  | restricted
  | permissive
  deriving DecidableEq, Repr

/-- How many CASE expressions may be opened where so many are open. -/
def Mode.nesting : Mode → ℕ → CaseNesting
  | .permissive, _ => .unlimited
  | .restricted, 0 => .one
  | .restricted, _ + 1 => .none

/-- Where a walk stands, and how many CASE expressions are open there. -/
structure Cursor where
  position : ℕ
  openCases : ℕ
  deriving DecidableEq, Repr

/-- What is read on the way of a cursor. -/
abbrev Walk := ExceptT QueryError (StateT Cursor Option)

namespace Walk

variable {α : Type} (tokens : List Token)

/-- How the walk ends that starts at this cursor. -/
def outcome (w : Walk α) (c : Cursor) : Option (Except QueryError α × Cursor) :=
  (ExceptT.run w).run c

/-- No way on. -/
def stuck : Walk α := fun _ => none

/-- The token at the cursor; the last one if the cursor is beyond. -/
def current : Walk Token := fun c =>
  tokens[min c.position (tokens.length - 1)]?.map fun t => (.ok t, c)

/-- The token so far behind the cursor. -/
def peek (offset : ℕ) : Walk (Option Token) := fun c =>
  some (.ok tokens[c.position + offset]?, c)

/-- On to the next token; the cursor never passes the last one. -/
def advance : Walk Unit := fun c =>
  some (.ok (), if c.position + 1 < tokens.length then { c with position := c.position + 1 } else c)

/-- A parse error placed at the cursor. -/
def refuse (fault : ParseFault) : Walk α := do
  let t ← current tokens
  throw (.parse fault (some t.position))

/-- The token at the cursor is passed if it is of this kind. -/
def consumeIf (kind : TokenKind) : Walk Bool := do
  let t ← current tokens
  if t.kind = kind then do
    advance tokens
    return true
  else
    return false

/-- The token at the cursor, which has to be of this kind. -/
def expect (wanted : TokenKind) : Walk Token := do
  let t ← current tokens
  if t.kind = wanted then do
    advance tokens
    return t
  else
    refuse tokens (.kindExpected wanted t.kind t.text)

/-- The text of the token at the cursor, which has to be an identifier. -/
def expectIdentifier : Walk String := do
  let t ← current tokens
  if t.kind = .identifier then do
    advance tokens
    return t.text
  else
    refuse tokens (.identifierExpected t.kind t.text)

/-- The negative of an expression.  The sign of a constant is taken into it, and an integer has to
    have a negative. -/
def negate : Expr → Walk Expr
  | .literal (.integer n) => fun c =>
    (Word.ofInt? (-n.toInt)).map fun m => (.ok (.literal (.integer m)), c)
  | .literal (.float x) => return .literal (.float (-x))
  | e => return .unary .minus e

/-- A CASE expression, whose keyword is at this position of the text and whose rest is `body`.  It
    counts as open until the rest is read or refused. -/
def enclosed (mode : Mode) (position : ℕ) (body : Walk α) : Walk α := fun c =>
  if mode = .restricted ∧ 0 < c.openCases then
    some (.error (.nestedCase position), c)
  else do
    let (result, c') ← body.outcome { c with openCases := c.openCases + 1 }
    return (result, { c' with openCases := c'.openCases - 1 })

/-- The end of `IS [NOT] NULL`. -/
def nullTest (operand : Expr) : Walk Expr := do
  if ← consumeIf tokens .not_ then do
    if ← consumeIf tokens .null then
      return .unary .isNotNull operand
    else
      refuse tokens (.nullExpected true)
  else do
    if ← consumeIf tokens .null then
      return .unary .isNull operand
    else
      refuse tokens (.nullExpected false)

/-- The further segments of a dotted name. -/
def segments : ℕ → String → Walk String
  | 0, _ => stuck
  | n + 1, name => do
    if ← consumeIf tokens .dot then do
      let segment ← expectIdentifier tokens
      segments n (name ++ "." ++ segment)
    else
      return name

end Walk

/-! ## The grammar -/

open Walk (current peek advance consumeIf)

variable (tokens : List Token) (mode : Mode)

mutual

/-- An expression of this level. -/
def walkAt : ℕ → Level → Walk Expr
  | 0, _ => Walk.stuck
  | n + 1, .not => do
    if ← consumeIf tokens .not_ then do
      let e ← walkAt n .not
      return .unary .not e
    else
      walkAt n .comparison
  | n + 1, .comparison => do
    let left ← walkAt n .concat
    walkComparison n left
  | n + 1, .sign => do
    if ← consumeIf tokens .minus then do
      let e ← walkAt n .sign
      Walk.negate e
    else do
      if ← consumeIf tokens .plus then
        walkAt n .sign
      else
        walkAt n .primary
  | n + 1, .primary => walkPrimary n
  | n + 1, .or => do
    let left ← walkAt n .and
    walkChain n .or left
  | n + 1, .and => do
    let left ← walkAt n .not
    walkChain n .and left
  | n + 1, .concat => do
    let left ← walkAt n .additive
    walkChain n .concat left
  | n + 1, .additive => do
    let left ← walkAt n .multiplicative
    walkChain n .additive left
  | n + 1, .multiplicative => do
    let left ← walkAt n .sign
    walkChain n .multiplicative left

/-- Further operators of a level that groups to the left, behind the operand `left`. -/
def walkChain : ℕ → Level → Expr → Walk Expr
  | 0, _, _ => Walk.stuck
  | n + 1, level, left => do
    let t ← current tokens
    match level.operator? t.kind with
    | none => return left
    | some op => do
      advance tokens
      let right ← walkAt n level.next
      walkChain n level (.binary op left right)

/-- What a comparison adds to its left operand, if anything. -/
def walkComparison : ℕ → Expr → Walk Expr
  | 0, _ => Walk.stuck
  | n + 1, left => do
    let t ← current tokens
    match comparisonOf? t.kind with
    | some op => do
      advance tokens
      let right ← walkAt n .concat
      return .binary op left right
    | none =>
      if t.kind = .is_ then do
        advance tokens
        Walk.nullTest tokens left
      else if t.kind = .in_ then do
        advance tokens
        walkMembership n left false
      else if t.kind = .between then do
        advance tokens
        walkBetween n left false
      else if t.kind = .not_ then do
        match ← peek tokens 1 with
        | none => return left
        | some u =>
          if u.kind = .in_ then do
            advance tokens
            advance tokens
            walkMembership n left true
          else if u.kind = .between then do
            advance tokens
            advance tokens
            walkBetween n left true
          else if u.kind = .like then do
            advance tokens
            advance tokens
            let right ← walkAt n .concat
            return .binary .notLike left right
          else
            return left
      else
        return left

/-- The list behind IN. -/
def walkMembership : ℕ → Expr → Bool → Walk Expr
  | 0, _, _ => Walk.stuck
  | n + 1, left, negated => do
    if ← consumeIf tokens .leftParen then do
      if ← consumeIf tokens .rightParen then
        return .binary (membership negated) left (.list [])
      else do
        let items ← walkItems n
        return .binary (membership negated) left (.list items)
    else
      Walk.refuse tokens .listExpected

/-- The items of a list with its closing parenthesis. -/
def walkItems : ℕ → Walk (List Expr)
  | 0 => Walk.stuck
  | n + 1 => do
    let e ← walkAt n .or
    if ← consumeIf tokens .comma then do
      let items ← walkItems n
      return e :: items
    else do
      if ← consumeIf tokens .rightParen then
        return [e]
      else
        Walk.refuse tokens .listSeparatorExpected

/-- The bounds behind BETWEEN. -/
def walkBetween : ℕ → Expr → Bool → Walk Expr
  | 0, _, _ => Walk.stuck
  | n + 1, operand, negated => do
    let low ← walkAt n .concat
    if ← consumeIf tokens .and_ then do
      let high ← walkAt n .concat
      return .between negated operand low high
    else
      Walk.refuse tokens .betweenAndExpected

/-- A constant, a column, a call, a CASE or an expression in parentheses. -/
def walkPrimary : ℕ → Walk Expr
  | 0 => Walk.stuck
  | n + 1 => do
    let t ← current tokens
    match constant? t with
    | some value => do
      advance tokens
      return .literal value
    | none =>
      if t.kind = .number then do
        advance tokens
        match numberLiteral? t.text with
        | some value => return .literal value
        | none => throw (.parse (.invalidNumber t.text) (some t.position))
      else if t.kind = .case_ then do
        advance tokens
        Walk.enclosed mode t.position (walkCase n)
      else if t.kind = .leftParen then do
        advance tokens
        let e ← walkAt n .or
        let _ ← Walk.expect tokens .rightParen
        return e
      else if t.kind = .identifier then do
        advance tokens
        if ← consumeIf tokens .leftParen then do
          let args ← walkArguments n
          return .call t.text args
        else do
          let name ← Walk.segments tokens n t.text
          return .column name
      else if t.kind = .eof then
        Walk.refuse tokens .endOfExpression
      else
        Walk.refuse tokens (.unexpectedToken t.kind t.text)

/-- The arguments of a call with its closing parenthesis; a star stands for none. -/
def walkArguments : ℕ → Walk (List Expr)
  | 0 => Walk.stuck
  | n + 1 => do
    if ← consumeIf tokens .asterisk then do
      let _ ← Walk.expect tokens .rightParen
      return []
    else do
      if ← consumeIf tokens .rightParen then
        return []
      else
        walkArgumentList n

/-- At least one argument, with the closing parenthesis of the call. -/
def walkArgumentList : ℕ → Walk (List Expr)
  | 0 => Walk.stuck
  | n + 1 => do
    let e ← walkAt n .or
    if ← consumeIf tokens .comma then do
      let args ← walkArgumentList n
      return e :: args
    else do
      let _ ← Walk.expect tokens .rightParen
      return [e]

/-- A CASE expression behind its keyword. -/
def walkCase : ℕ → Walk Expr
  | 0 => Walk.stuck
  | n + 1 => do
    let t ← current tokens
    if t.kind = .when_ then
      walkCaseBody n none
    else do
      let operand ← walkAt n .or
      walkCaseBody n (some operand)

/-- The branches and the end of a CASE expression. -/
def walkCaseBody : ℕ → Option Expr → Walk Expr
  | 0, _ => Walk.stuck
  | n + 1, operand => do
    let branches ← walkBranches n
    if branches.isEmpty then
      Walk.refuse tokens .caseWithoutWhen
    else do
      if ← consumeIf tokens .else_ then do
        let otherwise ← walkAt n .or
        let _ ← Walk.expect tokens .end_
        return .cases operand branches (some otherwise)
      else do
        let _ ← Walk.expect tokens .end_
        return .cases operand branches none

/-- The branches of a CASE expression. -/
def walkBranches : ℕ → Walk (List (Expr × Expr))
  | 0 => Walk.stuck
  | n + 1 => do
    if ← consumeIf tokens .when_ then do
      let condition ← walkAt n .or
      let _ ← Walk.expect tokens .then_
      let result ← walkAt n .or
      let branches ← walkBranches n
      return (condition, result) :: branches
    else
      return []

end

end Expr

end StreamSql
