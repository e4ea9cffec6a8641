/-
  Blank characters: the Unicode property `White_Space`, and trimming by it.

  * `isBlank c`: `c` is `White_Space`;
  * `trim s`: `s` without the blank characters at its two ends.
-/
import StreamSql.Text.CharRange

namespace StreamSql.Text

/-- The ranges of `White_Space`. -/
def blankRanges : List CharRange := [
  (0x9, 0xD), (0x20, 0x20), (0x85, 0x85), (0xA0, 0xA0), (0x1680, 0x1680), (0x2000, 0x200A),
  (0x2028, 0x2029), (0x202F, 0x202F), (0x205F, 0x205F), (0x3000, 0x3000)]

/-- The character is blank. -/
def isBlank (c : Char) : Bool :=
  CharRange.holds blankRanges c

/-- The characters without the blank ones at the two ends. -/
def trimChars (cs : List Char) : List Char :=
  ((cs.dropWhile isBlank).reverse.dropWhile isBlank).reverse

/-- The text without the blank characters at its two ends. -/
def trim (s : String) : String :=
  String.ofList (trimChars s.toList)

end StreamSql.Text
