/-
  Reading expressions from tokens.

  The levels of the grammar, from the loosest to the tightest binding:

      OR · AND · NOT · comparison (=, LIKE, IN, BETWEEN, IS) · || · + - · * / % · sign · primary

  Operators of one level are grouped to the left; a comparison has no comparison as an
  operand.  `readAt level` reads an expression of a level and `readChain level` goes on
  with the operators of that level.

  Every reader takes a token list and returns what it read with the tokens behind it,
  which are fewer (`Parsed`) or at least not more (`Continued`); the recursion ends because
  of that.  An error is placed at the first token that does not fit.

  `CaseNesting` says how many CASE expressions may still be opened inside one another.
-/
import StreamSql.Expr
import StreamSql.Number.Numeral
import StreamSql.Remainder
import StreamSql.Token.Lexer

namespace StreamSql

/-- A reading that uses up at least one token. -/
abbrev Parsed (α : Type) (ts : List Token) :=
  Except QueryError (α × { rest : List Token // rest.length < ts.length })

/-- A reading that may use up no token. -/
abbrev Continued (α : Type) (ts : List Token) :=
  Except QueryError (α × { rest : List Token // rest.length ≤ ts.length })

namespace Token

/-- The first token; the end of the text if there is none. -/
def first (ts : List Token) : Token :=
  ts.headD (endOfText 0)

/-- The kind of the first token. -/
def firstKind (ts : List Token) : TokenKind :=
  (first ts).kind

/-- A parse error placed at the first token. -/
def refuse {α : Type} (ts : List Token) (fault : ParseFault) : Except QueryError α :=
  .error (.parse fault (some (first ts).position))

/-- The first token, which has to be of this kind. -/
def expect (wanted : TokenKind) (ts : List Token) : Parsed Token ts :=
  match ts with
  | t :: rest =>
    if t.kind = wanted then .ok (t, ⟨rest, Remainder.lt_cons t rest⟩)
    else refuse (t :: rest) (.kindExpected wanted t.kind t.text)
  | [] => refuse [] (.kindExpected wanted .eof "")

/-- The text of the first token, which has to be an identifier. -/
def expectIdentifier (ts : List Token) : Parsed String ts :=
  match ts with
  | t :: rest =>
    if t.kind = .identifier then .ok (t.text, ⟨rest, Remainder.lt_cons t rest⟩)
    else refuse (t :: rest) (.identifierExpected t.kind t.text)
  | [] => refuse [] (.identifierExpected .eof "")

/-- No token is left but the end of the text. -/
def expectEnd (ts : List Token) : Except QueryError Unit :=
  if firstKind ts = .eof then .ok () else refuse ts (.trailingInput (first ts).text)

/-- The first token is passed if it is of this kind. -/
def skip? (kind : TokenKind) (ts : List Token) :
    Option { rest : List Token // rest.length < ts.length } :=
  match ts with
  | t :: rest => if t.kind = kind then some ⟨rest, Remainder.lt_cons t rest⟩ else none
  | [] => none

end Token

namespace Expr

open Token

/-! ## The grammar -/

/-- How many CASE expressions may still be opened inside one another. -/
inductive CaseNesting where
  | unlimited
  | one
  | none
  deriving DecidableEq, Repr

/-- What is left inside a CASE expression; nothing if it may not be opened. -/
def CaseNesting.enter? : CaseNesting → Option CaseNesting
  | .unlimited => some .unlimited
  | .one => some .none
  | .none => Option.none

/-- The levels of the grammar. -/
inductive Level where
  | or | and | not | comparison | concat | additive | multiplicative | sign | primary
  deriving DecidableEq, Repr

namespace Level

/-- The number of tighter levels. -/
def height : Level → Nat
  | or => 8 | and => 7 | not => 6 | comparison => 5 | concat => 4 | additive => 3
  | multiplicative => 2 | sign => 1 | primary => 0

/-- The next tighter level. -/
def next : Level → Level
  | or => and | and => not | not => comparison | comparison => concat | concat => additive
  | additive => multiplicative | multiplicative => sign | sign => primary
  | primary => primary

/-- The operator of a level that groups to the left. -/
def operator? : Level → TokenKind → Option BinaryOp
  | or, .or_ => some .or
  | and, .and_ => some .and
  | concat, .concat => some .concat
  | additive, .plus => some .add
  | additive, .minus => some .subtract
  | multiplicative, .asterisk => some .multiply
  | multiplicative, .divide => some .divide
  | multiplicative, .percent => some .modulo
  | _, _ => none

end Level

/-- The operator of a plain comparison. -/
def comparisonOf? : TokenKind → Option BinaryOp
  | .equal => some .equal
  | .notEqual => some .notEqual
  | .lessThan => some .lessThan
  | .lessThanOrEqual => some .lessOrEqual
  | .greaterThan => some .greaterThan
  | .greaterThanOrEqual => some .greaterOrEqual
  | .like => some .like
  | _ => none

/-- The constant that a token of kind number spells: with a point or an exponent a float,
    otherwise an integer, or a float if it does not fit a word. -/
def numberLiteral? (text : String) : Option Literal :=
  if text.toList.any (fun c => c = '.' ∨ c = 'e' ∨ c = 'E') then
    (Numeral.readFloat? text).map .float
  else
    match Numeral.readWord? text with
    | some n => some (.integer n)
    | none => (Numeral.readFloat? text).map .float

/-- The constant that a token spells on its own. -/
def constant? (t : Token) : Option Literal :=
  match t.kind with
  | .text => some (.text t.text)
  | .null => some .null
  | .true_ => some (.boolean true)
  | .false_ => some (.boolean false)
  | _ => none

/-- The negative of an expression; the sign of a constant number is taken into it. -/
def negated : Expr → Expr
  | .literal (.integer n) => .literal (.integer (-n))
  | .literal (.float x) => .literal (.float (-x))
  | e => .unary .minus e

/-- IN or its negation. -/
def membership (negated : Bool) : BinaryOp :=
  if negated then .notIn else .isIn

/-- The further segments of a dotted name. -/
def readSegments (name : String) (ts : List Token) : Continued String ts :=
  match skip? .dot ts with
  | none => .ok (name, ⟨ts, Remainder.le_self ts⟩)
  | some ⟨rest, h⟩ => do
    let (segment, ⟨rest', h'⟩) ← expectIdentifier rest
    let (whole, ⟨rest'', h''⟩) ← readSegments (name ++ "." ++ segment) rest'
    return (whole, ⟨rest'', by omega⟩)
termination_by ts.length

/-- The end of `IS [NOT] NULL`. -/
def readNullTest (operand : Expr) (ts : List Token) : Parsed Expr ts :=
  match skip? .not_ ts with
  | some ⟨rest, h⟩ =>
    match skip? .null rest with
    | some ⟨rest', h'⟩ => .ok (.unary .isNotNull operand, ⟨rest', by omega⟩)
    | none => refuse rest (.nullExpected true)
  | none =>
    match skip? .null ts with
    | some ⟨rest, h⟩ => .ok (.unary .isNull operand, ⟨rest, h⟩)
    | none => refuse ts (.nullExpected false)

/-! ## The readers -/

mutual

/-- An expression of this level. -/
def readAt (nesting : CaseNesting) (level : Level) (ts : List Token) : Parsed Expr ts :=
  match level with
  | .not =>
    match skip? .not_ ts with
    | some ⟨rest, h⟩ => do
      let (e, ⟨rest', h'⟩) ← readAt nesting .not rest
      return (.unary .not e, ⟨rest', by omega⟩)
    | none => readAt nesting .comparison ts
  | .comparison => do
    let (left, ⟨rest, h⟩) ← readAt nesting .concat ts
    let (e, ⟨rest', h'⟩) ← readComparison nesting left rest
    return (e, ⟨rest', by omega⟩)
  | .sign =>
    match skip? .minus ts with
    | some ⟨rest, h⟩ => do
      let (e, ⟨rest', h'⟩) ← readAt nesting .sign rest
      return (e.negated, ⟨rest', by omega⟩)
    | none =>
      match skip? .plus ts with
      | some ⟨rest, h⟩ => do
        let (e, ⟨rest', h'⟩) ← readAt nesting .sign rest
        return (e, ⟨rest', by omega⟩)
      | none => readAt nesting .primary ts
  | .primary => readPrimary nesting ts
  | .or => do
    let (left, ⟨rest, h⟩) ← readAt nesting .and ts
    let (e, ⟨rest', h'⟩) ← readChain nesting .or left rest
    return (e, ⟨rest', by omega⟩)
  | .and => do
    let (left, ⟨rest, h⟩) ← readAt nesting .not ts
    let (e, ⟨rest', h'⟩) ← readChain nesting .and left rest
    return (e, ⟨rest', by omega⟩)
  | .concat => do
    let (left, ⟨rest, h⟩) ← readAt nesting .additive ts
    let (e, ⟨rest', h'⟩) ← readChain nesting .concat left rest
    return (e, ⟨rest', by omega⟩)
  | .additive => do
    let (left, ⟨rest, h⟩) ← readAt nesting .multiplicative ts
    let (e, ⟨rest', h'⟩) ← readChain nesting .additive left rest
    return (e, ⟨rest', by omega⟩)
  | .multiplicative => do
    let (left, ⟨rest, h⟩) ← readAt nesting .sign ts
    let (e, ⟨rest', h'⟩) ← readChain nesting .multiplicative left rest
    return (e, ⟨rest', by omega⟩)
termination_by (ts.length, level.height + 1)
decreasing_by
  all_goals simp [Prod.lex_def, Level.height]
  all_goals omega

/-- Further operators of a level that groups to the left, behind the operand `left`. -/
def readChain (nesting : CaseNesting) (level : Level) (left : Expr) (ts : List Token) :
    Continued Expr ts :=
  match ts with
  | [] => .ok (left, ⟨[], Remainder.le_self []⟩)
  | t :: rest =>
    match level.operator? t.kind with
    | none => .ok (left, ⟨t :: rest, Nat.le_refl _⟩)
    | some op => do
      let (right, ⟨rest', h⟩) ← readAt nesting level.next rest
      let (e, ⟨rest'', h'⟩) ← readChain nesting level (.binary op left right) rest'
      return (e, ⟨rest'', by simp only [List.length_cons]; omega⟩)
termination_by (ts.length, 0)
decreasing_by
  all_goals simp only [List.length_cons, Prod.lex_def]; omega

/-- What a comparison adds to its left operand, if anything. -/
def readComparison (nesting : CaseNesting) (left : Expr) (ts : List Token) : Continued Expr ts :=
  match ts with
  | [] => .ok (left, ⟨[], Remainder.le_self []⟩)
  | t :: rest =>
    match comparisonOf? t.kind with
    | some op => do
      let (right, ⟨rest', h⟩) ← readAt nesting .concat rest
      return (.binary op left right, ⟨rest', by simp only [List.length_cons]; omega⟩)
    | none =>
      if t.kind = .is_ then do
        let (e, ⟨rest', h⟩) ← readNullTest left rest
        return (e, ⟨rest', by simp only [List.length_cons]; omega⟩)
      else if t.kind = .in_ then do
        let (e, ⟨rest', h⟩) ← readMembership nesting left false rest
        return (e, ⟨rest', by simp only [List.length_cons]; omega⟩)
      else if t.kind = .between then do
        let (e, ⟨rest', h⟩) ← readBetween nesting left false rest
        return (e, ⟨rest', by simp only [List.length_cons]; omega⟩)
      else if t.kind = .not_ then
        match rest with
        | [] => .ok (left, ⟨t :: [], Nat.le_refl _⟩)
        | u :: rest' =>
          if u.kind = .in_ then do
            let (e, ⟨rest'', h⟩) ← readMembership nesting left true rest'
            return (e, ⟨rest'', by simp only [List.length_cons]; omega⟩)
          else if u.kind = .between then do
            let (e, ⟨rest'', h⟩) ← readBetween nesting left true rest'
            return (e, ⟨rest'', by simp only [List.length_cons]; omega⟩)
          else if u.kind = .like then do
            let (right, ⟨rest'', h⟩) ← readAt nesting .concat rest'
            return (.binary .notLike left right,
              ⟨rest'', by simp only [List.length_cons]; omega⟩)
          else
            .ok (left, ⟨t :: u :: rest', Nat.le_refl _⟩)
      else
        .ok (left, ⟨t :: rest, Nat.le_refl _⟩)
termination_by (ts.length, 0)
decreasing_by
  all_goals simp only [List.length_cons, Prod.lex_def]; omega

/-- The list behind IN. -/
def readMembership (nesting : CaseNesting) (left : Expr) (negated : Bool) (ts : List Token) :
    Parsed Expr ts :=
  match skip? .leftParen ts with
  | none => refuse ts .listExpected
  | some ⟨rest, h⟩ =>
    match skip? .rightParen rest with
    | some ⟨rest', h'⟩ =>
      .ok (.binary (membership negated) left (.list []), ⟨rest', by omega⟩)
    | none => do
      let (items, ⟨rest', h'⟩) ← readItems nesting rest
      return (.binary (membership negated) left (.list items), ⟨rest', by omega⟩)
termination_by (ts.length, 0)

/-- The items of a list with its closing parenthesis. -/
def readItems (nesting : CaseNesting) (ts : List Token) : Parsed (List Expr) ts := do
  let (e, ⟨rest, h⟩) ← readAt nesting .or ts
  match skip? .comma rest with
  | some ⟨rest', h'⟩ =>
    let (items, ⟨rest'', h''⟩) ← readItems nesting rest'
    return (e :: items, ⟨rest'', by omega⟩)
  | none =>
    match skip? .rightParen rest with
    | some ⟨rest', h'⟩ => return ([e], ⟨rest', by omega⟩)
    | none => refuse rest .listSeparatorExpected
termination_by (ts.length, 10)
decreasing_by
  all_goals simp [Prod.lex_def, Level.height]
  all_goals omega

/-- The bounds behind BETWEEN. -/
def readBetween (nesting : CaseNesting) (operand : Expr) (negated : Bool) (ts : List Token) :
    Parsed Expr ts := do
  let (low, ⟨rest, h⟩) ← readAt nesting .concat ts
  match skip? .and_ rest with
  | none => refuse rest .betweenAndExpected
  | some ⟨rest', h'⟩ =>
    let (high, ⟨rest'', h''⟩) ← readAt nesting .concat rest'
    return (.between negated operand low high, ⟨rest'', by omega⟩)
termination_by (ts.length, 10)
decreasing_by
  all_goals simp [Prod.lex_def, Level.height]
  all_goals omega

/-- A constant, a column, a call, a CASE or an expression in parentheses. -/
def readPrimary (nesting : CaseNesting) (ts : List Token) : Parsed Expr ts :=
  match ts with
  | [] => refuse [] .endOfExpression
  | t :: rest =>
    match constant? t with
    | some value => .ok (.literal value, ⟨rest, Remainder.lt_cons t rest⟩)
    | none =>
      if t.kind = .number then
        match numberLiteral? t.text with
        | some value => .ok (.literal value, ⟨rest, Remainder.lt_cons t rest⟩)
        | none => refuse (t :: rest) (.invalidNumber t.text)
      else if t.kind = .case_ then
        match nesting.enter? with
        | none => .error (.nestedCase t.position)
        | some inner => do
          let (e, ⟨rest', h⟩) ← readCase inner rest
          return (e, ⟨rest', by simp only [List.length_cons]; omega⟩)
      else if t.kind = .leftParen then do
        let (e, ⟨rest', h⟩) ← readAt nesting .or rest
        let (_, ⟨rest'', h'⟩) ← expect .rightParen rest'
        return (e, ⟨rest'', by simp only [List.length_cons]; omega⟩)
      else if t.kind = .identifier then
        match skip? .leftParen rest with
        | some ⟨rest', h⟩ => do
          let (args, ⟨rest'', h'⟩) ← readArguments nesting rest'
          return (.call t.text args, ⟨rest'', by simp only [List.length_cons]; omega⟩)
        | none => do
          let (name, ⟨rest', h⟩) ← readSegments t.text rest
          return (.column name, ⟨rest', by simp only [List.length_cons]; omega⟩)
      else if t.kind = .eof then
        refuse (t :: rest) .endOfExpression
      else
        refuse (t :: rest) (.unexpectedToken t.kind t.text)
termination_by (ts.length, 0)
decreasing_by
  all_goals simp only [List.length_cons, Prod.lex_def]; omega

/-- The arguments of a call with its closing parenthesis; a star stands for none. -/
def readArguments (nesting : CaseNesting) (ts : List Token) : Parsed (List Expr) ts :=
  match skip? .asterisk ts with
  | some ⟨rest, h⟩ => do
    let (_, ⟨rest', h'⟩) ← expect .rightParen rest
    return ([], ⟨rest', by omega⟩)
  | none =>
    match skip? .rightParen ts with
    | some ⟨rest, h⟩ => .ok ([], ⟨rest, h⟩)
    | none => readArgumentList nesting ts
termination_by (ts.length, 11)

/-- At least one argument, with the closing parenthesis of the call. -/
def readArgumentList (nesting : CaseNesting) (ts : List Token) : Parsed (List Expr) ts := do
  let (e, ⟨rest, h⟩) ← readAt nesting .or ts
  match skip? .comma rest with
  | some ⟨rest', h'⟩ =>
    let (args, ⟨rest'', h''⟩) ← readArgumentList nesting rest'
    return (e :: args, ⟨rest'', by omega⟩)
  | none =>
    let (_, ⟨rest', h'⟩) ← expect .rightParen rest
    return ([e], ⟨rest', by omega⟩)
termination_by (ts.length, 10)
decreasing_by
  all_goals simp [Prod.lex_def, Level.height]
  all_goals omega

/-- A CASE expression behind its keyword. -/
def readCase (nesting : CaseNesting) (ts : List Token) : Parsed Expr ts :=
  if firstKind ts = .when_ then do
    let (e, ⟨rest, h⟩) ← readCaseBody nesting none ts
    return (e, ⟨rest, h⟩)
  else do
    let (operand, ⟨rest, h⟩) ← readAt nesting .or ts
    let (e, ⟨rest', h'⟩) ← readCaseBody nesting (some operand) rest
    return (e, ⟨rest', by omega⟩)
termination_by (ts.length, 12)
decreasing_by
  all_goals simp [Prod.lex_def, Level.height]
  all_goals omega

/-- The branches and the end of a CASE expression. -/
def readCaseBody (nesting : CaseNesting) (operand : Option Expr) (ts : List Token) :
    Parsed Expr ts := do
  let (branches, ⟨rest, h⟩) ← readBranches nesting ts
  if branches.isEmpty then
    refuse rest .caseWithoutWhen
  else
    match skip? .else_ rest with
    | some ⟨rest', h'⟩ =>
      let (otherwise, ⟨rest'', h''⟩) ← readAt nesting .or rest'
      let (_, ⟨rest₃, h₃⟩) ← expect .end_ rest''
      return (.cases operand branches (some otherwise), ⟨rest₃, by omega⟩)
    | none =>
      let (_, ⟨rest', h'⟩) ← expect .end_ rest
      return (.cases operand branches none, ⟨rest', by omega⟩)
termination_by (ts.length, 11)

/-- The branches of a CASE expression. -/
def readBranches (nesting : CaseNesting) (ts : List Token) :
    Continued (List (Expr × Expr)) ts :=
  match skip? .when_ ts with
  | none => .ok ([], ⟨ts, Remainder.le_self ts⟩)
  | some ⟨rest, h⟩ => do
    let (condition, ⟨rest₁, h₁⟩) ← readAt nesting .or rest
    let (_, ⟨rest₂, h₂⟩) ← expect .then_ rest₁
    let (result, ⟨rest₃, h₃⟩) ← readAt nesting .or rest₂
    let (branches, ⟨rest₄, h₄⟩) ← readBranches nesting rest₃
    return ((condition, result) :: branches, ⟨rest₄, by omega⟩)
termination_by (ts.length, 10)
decreasing_by
  all_goals simp [Prod.lex_def, Level.height]
  all_goals omega

end

/-- The expression that the tokens up to the end of the text spell. -/
def ofTokens (nesting : CaseNesting) (ts : List Token) : Except QueryError Expr := do
  let (e, ⟨rest, _⟩) ← readAt nesting .or ts
  expectEnd rest
  return e

/-- The expression that a text spells. -/
def parse (nesting : CaseNesting) (text : String) : Except QueryError Expr := do
  let tokens ← tokenize text
  ofTokens nesting tokens

end Expr

end StreamSql
