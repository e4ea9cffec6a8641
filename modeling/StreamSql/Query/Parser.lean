/-
  Reading queries.

      SELECT [DISTINCT] columns FROM source [WITH (…)] [WHERE condition]
      [GROUP BY expressions, at most one of them a window] [HAVING condition]
      [LIMIT n] [WITH (…)] [;]

  The clauses are read one behind the other; each reader returns the tokens behind its
  clause.
-/
import StreamSql.Expr.Parser
import StreamSql.Query
import StreamSql.Remainder

namespace StreamSql.Query

open Token

/-- The clauses of GROUP BY. -/
structure Grouping where
  expressions : List Expr := []
  window : Option WindowSpec := none

/-- An expression in which CASE may be nested. -/
def readExpr (ts : List Token) : Parsed Expr ts :=
  Expr.readAt .unlimited .or ts

/-- The alias behind AS. -/
def readAlias (ts : List Token) : Parsed String ts :=
  match ts with
  | t :: rest =>
    if t.kind = .identifier ∨ t.kind = .text then
      .ok (t.text, ⟨rest, Remainder.lt_cons t rest⟩)
    else refuse (t :: rest) (.aliasExpected t.text)
  | [] => refuse [] (.aliasExpected "")

/-- The alias of a column, if it has one; AS may be left out before an identifier. -/
def readAlias? (ts : List Token) : Continued (Option String) ts :=
  match skip? .as_ ts with
  | some ⟨rest, h⟩ => do
    let (name, ⟨rest', h'⟩) ← readAlias rest
    return (some name, ⟨rest', Remainder.le_of_lt (Remainder.lt_trans h' h)⟩)
  | none =>
    match expectIdentifier ts with
    | .ok (name, ⟨rest, h⟩) => .ok (some name, ⟨rest, Remainder.le_of_lt h⟩)
    | .error _ => .ok (none, ⟨ts, Remainder.le_self ts⟩)

/-- A column of the SELECT clause. -/
def readField (ts : List Token) : Parsed SelectField ts :=
  match skip? .asterisk ts with
  | some rest => .ok (.wildcard, rest)
  | none => do
    let (expression, ⟨rest, h⟩) ← readExpr ts
    let (alias?, ⟨rest', h'⟩) ← readAlias? rest
    return (.column expression alias?, ⟨rest', Remainder.lt_of_le h' h⟩)

/-- The columns of the SELECT clause. -/
def readFields (ts : List Token) : Parsed (List SelectField) ts := do
  let (field, ⟨rest, h⟩) ← readField ts
  match skip? .comma rest with
  | some ⟨rest', h'⟩ =>
    let (fields, ⟨rest'', h''⟩) ← readFields rest'
    return (field :: fields, ⟨rest'', by omega⟩)
  | none => return ([field], ⟨rest, h⟩)
termination_by ts.length

/-- A grouping expression added: a window call becomes the window, of which there is at
    most one. -/
def Grouping.add (g : Grouping) (position : Nat) : Expr → Except QueryError Grouping
  | .call name args =>
    if WindowSpec.isConstructor name then
      match g.window with
      | some _ => .error (.validation (.secondWindow position))
      | none => do
        let spec ← WindowSpec.ofCall? name args
        return { g with window := some spec }
    else
      .ok { g with expressions := g.expressions ++ [.call name args] }
  | e => .ok { g with expressions := g.expressions ++ [e] }

/-- The expressions of GROUP BY. -/
def readGrouping (g : Grouping) (ts : List Token) : Parsed Grouping ts := do
  let (e, ⟨rest, h⟩) ← readExpr ts
  let g ← g.add (first ts).position e
  match skip? .comma rest with
  | some ⟨rest', h'⟩ =>
    let (g, ⟨rest'', h''⟩) ← readGrouping g rest'
    return (g, ⟨rest'', by omega⟩)
  | none => return (g, ⟨rest, h⟩)
termination_by ts.length

/-- The text of the first token, which has to be of one of these kinds. -/
def readWord (kinds : List TokenKind) (fault : ParseFault) (ts : List Token) :
    Parsed String ts :=
  match ts with
  | t :: rest =>
    if kinds.contains t.kind then .ok (t.text, ⟨rest, Remainder.lt_cons t rest⟩)
    else refuse (t :: rest) fault
  | [] => refuse [] fault

/-- The properties of a WITH clause up to its closing parenthesis, added to `properties`. -/
def readProperties (properties : Table String) (ts : List Token) :
    Parsed (Table String) ts := do
  let (name, ⟨rest₁, h₁⟩) ← readWord [.identifier, .text] .propertyNameExpected ts
  let (_, ⟨rest₂, h₂⟩) ← expect .equal rest₁
  let (value, ⟨rest₃, h₃⟩) ←
    readWord [.text, .number, .identifier] .propertyValueExpected rest₂
  let properties := properties.insert (Text.upper name) value
  match skip? .comma rest₃ with
  | some ⟨rest₄, h₄⟩ =>
    let (properties, ⟨rest₅, h₅⟩) ← readProperties properties rest₄
    return (properties, ⟨rest₅, by omega⟩)
  | none =>
    let (_, ⟨rest₄, h₄⟩) ← expect .rightParen rest₃
    return (properties, ⟨rest₄, by omega⟩)
termination_by ts.length

/-- A WITH clause, if there is one. -/
def readWith (properties : Table String) (ts : List Token) :
    Except QueryError (Table String × List Token) :=
  match skip? .with_ ts with
  | none => .ok (properties, ts)
  | some rest => do
    let (_, rest) ← expect .leftParen rest.1
    let (properties, rest) ← readProperties properties rest.1
    return (properties, rest.1)

/-- An expression behind a keyword, if the keyword is there. -/
def readClause (keyword : TokenKind) (ts : List Token) :
    Except QueryError (Option Expr × List Token) :=
  match skip? keyword ts with
  | none => .ok (none, ts)
  | some rest => do
    let (e, rest) ← readExpr rest.1
    return (some e, rest.1)

/-- The GROUP BY clause, if there is one. -/
def readGroupBy (ts : List Token) : Except QueryError (Grouping × List Token) :=
  match skip? .group ts with
  | none => .ok ({}, ts)
  | some rest => do
    let (_, rest) ← expect .by_ rest.1
    let (grouping, rest) ← readGrouping {} rest.1
    return (grouping, rest.1)

/-- The LIMIT clause, if there is one. -/
def readLimit (ts : List Token) : Except QueryError (Option Nat × List Token) :=
  match skip? .limit ts with
  | none => .ok (none, ts)
  | some rest => do
    let (t, rest) ← expect .number rest.1
    match Numeral.readNatural? t.text with
    | some n => return (some n, rest.1)
    | none => .error (.parse (.limitNotNatural t.text) (some t.position))

/-- The tokens without a first token of this kind. -/
def dropOptional (kind : TokenKind) (ts : List Token) : Bool × List Token :=
  match skip? kind ts with
  | some rest => (true, rest.1)
  | none => (false, ts)

/-- The query that the tokens up to the end of the text spell. -/
def ofTokens (ts : List Token) : Except QueryError Query := do
  let (_, ts) ← expect .select ts
  let (distinct, ts) := dropOptional .distinct ts.1
  let (fields, ts) ← readFields ts
  let (_, ts) ← expect .from ts.1
  let (source, ts) ← expectIdentifier ts.1
  let (properties, ts) ← readWith [] ts.1
  let (condition, ts) ← readClause .where ts
  let (grouping, ts) ← readGroupBy ts
  let (having, ts) ← readClause .having ts
  let (limit, ts) ← readLimit ts
  let (properties, ts) ← readWith properties ts
  let (_, ts) := dropOptional .semicolon ts
  expectEnd ts
  return {
    fields, distinct, source, condition, groupBy := grouping.expressions
    window := grouping.window, having, limit, properties }

/-- The query that a text spells. -/
def parse (text : String) : Except QueryError Query := do
  let tokens ← tokenize text
  ofTokens tokens

end StreamSql.Query
