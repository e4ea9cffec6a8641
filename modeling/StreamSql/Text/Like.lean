/-
  Patterns of LIKE.

  In a pattern `%` stands for any text, `_` for any one character, and every other character for
  itself.  A pattern is translated to a regular expression for the whole text (`Pattern.translate`).

  Compiled patterns are kept (`PatternCache`), so that a pattern that is used again is not compiled
  again.  When `capacity` patterns are kept and another one is compiled, all of them are dropped.
-/
import StreamSql.Table
import StreamSql.Text.Regex

namespace StreamSql

namespace Pattern

/-- The regular expression for a character of a pattern. -/
def translateChar (c : Char) : List Char :=
  if c = '%' then ['.', '*'] else if c = '_' then ['.'] else Regex.escape c

/-- The regular expression for a pattern. -/
def translate (pattern : String) : String :=
  "(?s)^" ++ String.ofList (pattern.toList.flatMap translateChar) ++ "$"

end Pattern

/-- The compiled patterns that are kept, by pattern. -/
structure PatternCache (engine : RegexEngine) where
  programs : Table engine.Program := []

namespace PatternCache

variable {engine : RegexEngine}

/-- The number of patterns that are kept at most. -/
def capacity : Nat := 1000

/-- One program more; if there is no room, the others are dropped. -/
def keep (cache : PatternCache engine) (pattern : String) (program : engine.Program) :
    PatternCache engine :=
  let programs : Table engine.Program :=
    if capacity ≤ cache.programs.length then [] else cache.programs
  ⟨programs.insert pattern program⟩

/-- The program of a pattern, unless it is refused, and what is kept from then on. -/
def compiled (cache : PatternCache engine) (pattern : String) :
    Option engine.Program × PatternCache engine :=
  match cache.programs.get? pattern with
  | some program => (some program, cache)
  | none =>
    match engine.compile (Pattern.translate pattern) with
    | some program => (some program, cache.keep pattern program)
    | none => (none, cache)

end PatternCache

end StreamSql
