/-
  Splitting a text into tokens.

  A text is cut into pieces, each of which is a token or is skipped (blanks, comments).
  `piece` finds the first piece of a text: whether it is a token, and how many characters
  follow its first one.  `tokenize` repeats this up to the end, and closes the list with
  a token of kind `eof` at the length of the text.

  * Line comments run from `--` to the end of the line, block comments from `/*` to the
    next `*/`.
  * A quoted run ends at its quote; a doubled quote inside stands for one.  Single and
    double quotes give a text, grave quotes an identifier.
  * A number starts with a digit.  It takes a point only before a digit, at most once and
    not after an exponent mark, and one exponent mark with an optional sign.
  * A word starts with a letter or `_` and goes on with letters, numerals and `_`.
-/
import StreamSql.Error
import StreamSql.Text.Letters
import StreamSql.Token

namespace StreamSql.Token

/-- A token without its place; `none` for a piece that is skipped. -/
abbrev Lexeme := Option (TokenKind × String)

/-- The number of characters up to and with the end of a block comment. -/
def commentLength? : List Char → Option Nat
  | '*' :: '/' :: _ => some 2
  | _ :: rest => (commentLength? rest).map (· + 1)
  | [] => none

/-- The text of a quoted run behind its opening quote, and its length with the closing
    quote. -/
def quoted? (quote : Char) : List Char → Option (List Char × Nat)
  | [] => none
  | [c] => if c = quote then some ([], 1) else none
  | c :: d :: rest =>
    if c = quote then
      if d = quote then (quoted? quote rest).map fun (text, n) => (quote :: text, n + 2)
      else some ([], 1)
    else
      (quoted? quote (d :: rest)).map fun (text, n) => (c :: text, n + 1)

/-- The number of characters that continue a number; `point` and `mark` tell whether it
    has its decimal point and its exponent mark. -/
def numberLength (point mark : Bool) : List Char → Nat
  | [] => 0
  | [c] =>
    if c.isDigit then 1
    else if (c = 'e' ∨ c = 'E') ∧ !mark then 1
    else 0
  | c :: d :: rest =>
    if c.isDigit then
      numberLength point mark (d :: rest) + 1
    else if c = '.' ∧ !point ∧ !mark ∧ d.isDigit then
      numberLength true mark (d :: rest) + 1
    else if (c = 'e' ∨ c = 'E') ∧ !mark then
      if d = '+' ∨ d = '-' then numberLength point true rest + 2
      else numberLength point true (d :: rest) + 1
    else
      0

/-- A character that continues a word. -/
def continuesWord (c : Char) : Bool :=
  Text.isLetterOrNumeral c || c = '_'

/-- A quoted token behind its opening quote. -/
def quotedPiece (kind : TokenKind) (quote : Char) (rest : List Char) :
    Except ParseFault (Lexeme × Nat) :=
  match quoted? quote rest with
  | some (text, length) => .ok (some (kind, String.ofList text), length)
  | none => .error .unterminatedText

/-- The kind of a token that is one character long whatever follows. -/
def punctuation? : Char → Option TokenKind
  | '(' => some .leftParen
  | ')' => some .rightParen
  | ',' => some .comma
  | ';' => some .semicolon
  | '*' => some .asterisk
  | '.' => some .dot
  | '+' => some .plus
  | '-' => some .minus
  | '/' => some .divide
  | '%' => some .percent
  | _ => none

/-- A comparison operator: its kind, its text and the number of its further characters. -/
def comparison? : Char → Option Char → Option (TokenKind × String × Nat)
  | '=', some '=' => some (.equal, "=", 1)
  | '=', _ => some (.equal, "=", 0)
  | '<', some '=' => some (.lessThanOrEqual, "<=", 1)
  | '<', some '>' => some (.notEqual, "<>", 1)
  | '<', _ => some (.lessThan, "<", 0)
  | '>', some '=' => some (.greaterThanOrEqual, ">=", 1)
  | '>', _ => some (.greaterThan, ">", 0)
  | _, _ => none

/-- The first piece of the text `c :: rest` at `position`, and how many characters of
    `rest` belong to it. -/
def piece (position : Nat) (c : Char) (rest : List Char) : Except ParseFault (Lexeme × Nat) :=
  let next := rest.head?
  if c = ' ' ∨ c = '\t' ∨ c = '\n' ∨ c = '\r' then
    .ok (none, 0)
  else if c = '-' ∧ next = some '-' then
    .ok (none, (rest.takeWhile (· ≠ '\n')).length)
  else if c = '/' ∧ next = some '*' then
    match commentLength? (rest.drop 1) with
    | some length => .ok (none, length + 1)
    | none => .error .unterminatedComment
  else if let some kind := punctuation? c then
    .ok (some (kind, c.toString), 0)
  else if let some (kind, text, more) := comparison? c next then
    .ok (some (kind, text), more)
  else if c = '!' then
    if next = some '=' then .ok (some (.notEqual, "!="), 1) else .error .loneExclamation
  else if c = '|' then
    if next = some '|' then .ok (some (.concat, "||"), 1) else .error .loneBar
  else if c = '\x27' ∨ c = '\x22' then
    quotedPiece .text c rest
  else if c = '\x60' then
    quotedPiece .identifier c rest
  else if c.isDigit then
    let more := numberLength false false rest
    .ok (some (.number, String.ofList (c :: rest.take more)), more)
  else if Text.isLetter c ∨ c = '_' then
    let tail := rest.takeWhile continuesWord
    let word := String.ofList (c :: tail)
    .ok (some (TokenKind.ofWord word, word), tail.length)
  else
    .error (.unexpectedCharacter c position)

/-- The tokens of the characters from `position` on. -/
def tokenizeFrom (position : Nat) : List Char → Except QueryError (List Token)
  | [] => .ok [endOfText position]
  | c :: rest =>
    match piece position c rest with
    | .error fault => .error (.parse fault (some position))
    | .ok (lexeme, more) =>
      match tokenizeFrom (position + more + 1) (rest.drop more) with
      | .error e => .error e
      | .ok tokens =>
        match lexeme with
        | some (kind, text) => .ok (⟨kind, text, position⟩ :: tokens)
        | none => .ok tokens
termination_by cs => cs.length
decreasing_by simp only [List.length_drop, List.length_cons]; omega

/-- The tokens of a text, closed by the end of the text. -/
def tokenize (text : String) : Except QueryError (List Token) :=
  tokenizeFrom 0 text.toList

end StreamSql.Token
