/-
  Tokens.  A token has a kind, a text (for a quoted one the text inside the quotes, with
  doubled quotes read as one) and the position of its first character, counted in
  characters.
-/
import StreamSql.Token.Kind

namespace StreamSql

/-- A token of a query. -/
structure Token where
  kind : TokenKind
  text : String
  position : Nat
  deriving DecidableEq, Repr

/-- The token that ends a text of `length` characters. -/
def Token.endOfText (length : Nat) : Token := ⟨.eof, "", length⟩

end StreamSql
