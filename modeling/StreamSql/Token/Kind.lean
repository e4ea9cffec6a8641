/-
  The kinds of tokens of the query language, with the names under which messages show
  them, and the table of keywords.

  * `TokenKind.name`: the name of a kind;
  * `keywords`: every keyword in upper case with its kind;
  * `kindOfWord w`: the keyword that the word spells, in any case, or an identifier.
-/
import StreamSql.Text.Case

namespace StreamSql

/-- The kind of a token. -/
inductive TokenKind where
  | select | distinct | «from» | «where» | group | by_ | having | limit | as_ | with_
  | identifier | text | number | null | true_ | false_
  | leftParen | rightParen | comma | asterisk | dot | semicolon
  | plus | minus | divide | percent | concat
  | equal | notEqual | lessThan | greaterThan | lessThanOrEqual | greaterThanOrEqual
  | case_ | when_ | then_ | else_ | end_ | is_ | in_ | not_ | between | like | and_ | or_
  | eof
  deriving DecidableEq, Repr

namespace TokenKind

/-- The name of the kind in messages. -/
def name : TokenKind → String
  | select => "Select" | distinct => "Distinct" | «from» => "From" | «where» => "Where"
  | group => "Group" | by_ => "By" | having => "Having" | limit => "Limit" | as_ => "As"
  | with_ => "With" | identifier => "Identifier" | text => "String" | number => "Number"
  | null => "Null" | true_ => "True" | false_ => "False" | leftParen => "LeftParen"
  | rightParen => "RightParen" | comma => "Comma" | asterisk => "Asterisk" | dot => "Dot"
  | semicolon => "Semicolon" | plus => "Plus" | minus => "Minus" | divide => "Divide"
  | percent => "Percent" | concat => "Concat" | equal => "Equal" | notEqual => "NotEqual"
  | lessThan => "LessThan" | greaterThan => "GreaterThan"
  | lessThanOrEqual => "LessThanOrEqual" | greaterThanOrEqual => "GreaterThanOrEqual"
  | case_ => "Case" | when_ => "When" | then_ => "Then" | else_ => "Else" | end_ => "End"
  | is_ => "Is" | in_ => "In" | not_ => "Not" | between => "Between" | like => "Like"
  | and_ => "And" | or_ => "Or" | eof => "Eof"

/-- The keywords in upper case. -/
def keywords : List (String × TokenKind) := [
  ("SELECT", select), ("DISTINCT", distinct), ("FROM", «from»), ("WHERE", «where»),
  ("GROUP", group), ("BY", by_), ("HAVING", having), ("LIMIT", limit), ("AS", as_),
  ("WITH", with_), ("NULL", null), ("TRUE", true_), ("FALSE", false_), ("CASE", case_),
  ("WHEN", when_), ("THEN", then_), ("ELSE", else_), ("END", end_), ("IS", is_), ("IN", in_),
  ("NOT", not_), ("BETWEEN", between), ("LIKE", like), ("AND", and_), ("OR", or_)]

/-- The kind of a word: a keyword in any case, or an identifier. -/
def ofWord (word : String) : TokenKind :=
  (keywords.lookup (Text.upper word)).getD identifier

/-- No word is the end of the text. -/
theorem ofWord_ne_eof (word : String) : ofWord word ≠ eof := by
  unfold ofWord
  cases h : keywords.lookup (Text.upper word) with
  | none => simp
  | some k =>
    have hk : ∀ p ∈ keywords, p.2 ≠ eof := by decide
    obtain ⟨p, hp, rfl⟩ : ∃ p ∈ keywords, p.2 = k := by
      obtain ⟨l₁, l₂, hl, -⟩ := List.lookup_eq_some_iff.1 h
      exact ⟨_, hl ▸ List.mem_append_right l₁ List.mem_cons_self, rfl⟩
    simpa using hk p hp

end TokenKind

end StreamSql
