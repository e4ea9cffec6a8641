/-
  Rows of YAML mappings, and configurations through them.

  The text is a flat block mapping of scalars, or has no rows at all: an empty text, nothing
  but comments, or an empty flow mapping.  A scalar is plain, or quoted in one of two ways; a
  plain one has the type that its spelling gives it, a quoted one is text.  Lines are indented
  by spaces; a tab stands in an indentation only where a plain value may still go on.

  * `Yaml.readRows? text`: the rows of the mapping;
  * `Yaml.writeRows rows`: a line for every row;
  * `Yaml.format`: the format that reads and writes such texts;
  * `Config.ofYaml text`, `Config.toYaml c`: configurations in this format.
-/
import StreamSql.Config.YamlFormat
import StreamSql.Remainder

namespace StreamSql

namespace Yaml

/-- A scalar. -/
inductive Scalar where
  | plain (text : String)
  | quoted (text : String)
  deriving DecidableEq, Repr

/-! ## Scalars of one line -/

/-- A blank within a line. -/
def isBlank (c : Char) : Bool :=
  c = ' ' || c = '\t'

/-- The line without the blanks in front. -/
def skipBlanks (cs : List Char) : List Char :=
  cs.dropWhile isBlank

/-- The characters without the blanks at the end. -/
def trimEnd (cs : List Char) : List Char :=
  (cs.reverse.dropWhile isBlank).reverse

/-- Nothing is left on the line but a comment. -/
def isFinished (cs : List Char) : Bool :=
  match skipBlanks cs with
  | [] => true
  | c :: _ => c = '#'

/-- A colon at this place ends a key. -/
def isSeparator : List Char → Bool
  | ':' :: [] => true
  | ':' :: c :: _ => isBlank c
  | _ => false

/-- The plain characters up to a separator or a comment, and the rest. -/
def spanPlain (afterBlank : Bool) : List Char → List Char × List Char
  | [] => ([], [])
  | c :: rest =>
    if (afterBlank && c = '#') || isSeparator (c :: rest) then ([], c :: rest)
    else
      let (taken, left) := spanPlain (isBlank c) rest
      (c :: taken, left)

/-- The characters that have a meaning of their own in front of a scalar. -/
def indicators : List Char :=
  [',', '[', ']', '\x7b', '\x7d', '#', '&', '*', '!', '|', '>', '\x27', '\x22', '%', '@', '\x60']

/-- A plain scalar can begin here. -/
def beginsPlain : List Char → Bool
  | [] => false
  | c :: rest =>
    if c = '-' || c = '?' || c = ':' then
      match rest with
      | [] => false
      | next :: _ => !isBlank next
    else
      !indicators.contains c && !isBlank c

/-- The text between single quotes, in which a quote is written twice, and the rest. -/
def spanSingle : List Char → Option (List Char × List Char)
  | [] => none
  | '\x27' :: '\x27' :: rest => (spanSingle rest).map fun (taken, left) => ('\x27' :: taken, left)
  | c :: rest =>
    if c = '\x27' then some ([], rest)
    else (spanSingle rest).map fun (taken, left) => (c :: taken, left)

/-- The character that an escape of one letter stands for. -/
def escaped? : Char → Option Char
  | '0' => some '\x00'
  | 'a' => some '\x07'
  | 'b' => some '\x08'
  | 't' | '\t' => some '\t'
  | 'n' => some '\n'
  | 'v' => some '\x0b'
  | 'f' => some '\x0c'
  | 'r' => some '\r'
  | 'e' => some '\x1b'
  | ' ' => some ' '
  | '\x22' => some '\x22'
  | '/' => some '/'
  | '\\' => some '\\'
  | 'N' => some (Char.ofNat 0x85)
  | '_' => some (Char.ofNat 0xA0)
  | 'L' => some (Char.ofNat 0x2028)
  | 'P' => some (Char.ofNat 0x2029)
  | _ => none

/-- The number of digits of a numeric escape. -/
def escapeWidth? : Char → Option Nat
  | 'x' => some 2
  | 'u' => some 4
  | 'U' => some 8
  | _ => none

/-- The value of a digit in a base of at most sixteen. -/
def digit? (base : Nat) (c : Char) : Option Nat :=
  let n :=
    if '0' ≤ c ∧ c ≤ '9' then c.toNat - '0'.toNat
    else if 'a' ≤ c ∧ c ≤ 'f' then c.toNat - 'a'.toNat + 10
    else if 'A' ≤ c ∧ c ≤ 'F' then c.toNat - 'A'.toNat + 10
    else base
  if n < base then some n else none

/-- The value of a run of at least one digit. -/
def ofDigits? (base : Nat) (cs : List Char) : Option Nat :=
  if cs = [] then none
  else cs.foldlM (fun n c => (digit? base c).map fun d => base * n + d) 0

/-- The character of a number. -/
def charOf? (n : Nat) : Option Char :=
  if n.isValidChar then some (Char.ofNat n) else none

/-- The text between double quotes, with its escapes resolved, and the rest. -/
def spanDouble : List Char → Option (List Char × List Char)
  | [] => none
  | '\\' :: c :: rest =>
    match escapeWidth? c with
    | some width =>
      if rest.length < width then none
      else
        ((ofDigits? 16 (rest.take width)).bind charOf?).bind fun decoded =>
          (spanDouble (rest.drop width)).map fun (taken, left) => (decoded :: taken, left)
    | none =>
      (escaped? c).bind fun decoded =>
        (spanDouble rest).map fun (taken, left) => (decoded :: taken, left)
  | c :: rest =>
    if c = '\x22' then some ([], rest)
    else if c = '\\' then none
    else (spanDouble rest).map fun (taken, left) => (c :: taken, left)
termination_by cs => cs.length
decreasing_by
  · exact Remainder.drop_lt_cons₂ width '\\' c rest
  · exact Remainder.lt_cons₂ '\\' c rest
  · exact Remainder.lt_cons c rest

/-- A scalar at the front of a line, and the rest. -/
def scalar? : List Char → Option (Scalar × List Char)
  | '\x27' :: rest =>
    (spanSingle rest).map fun (taken, left) => (.quoted (String.ofList taken), left)
  | '\x22' :: rest =>
    (spanDouble rest).map fun (taken, left) => (.quoted (String.ofList taken), left)
  | cs =>
    if beginsPlain cs then
      let (taken, left) := spanPlain false cs
      some (.plain (String.ofList (trimEnd taken)), left)
    else
      none

/-! ## Rows -/

/-- The text of a scalar. -/
def Scalar.text : Scalar → String
  | plain text | quoted text => text

/-- The value behind the separator; a missing one is an empty plain scalar. -/
def value? (cs : List Char) : Option Scalar :=
  if isFinished cs then some (.plain "")
  else
    match scalar? (skipBlanks cs) with
    | some (scalar, left) => if isFinished left then some scalar else none
    | none => none

/-- The row of a line without its indentation. -/
def row? (cs : List Char) : Option (String × Scalar) :=
  match scalar? cs with
  | none => none
  | some (key, left) =>
    let left := skipBlanks left
    if isSeparator left then (value? (left.drop 1)).map fun v => (key.text, v) else none

/-- The characters that end a line. -/
def lineEnds : List Char :=
  ['\n', '\r', Char.ofNat 0x85, Char.ofNat 0x2028, Char.ofNat 0x2029]

/-- The character may stand in a text: it is no control but a tab or the end of a line. -/
def isAllowed (c : Char) : Bool :=
  c = '\t' || lineEnds.contains c ||
    (0x20 ≤ c.toNat && c.toNat < 0x7F) || (0xA0 ≤ c.toNat && c.toNat ∉ [0xFFFE, 0xFFFF])

/-- The lines of a text. -/
def lines : List Char → List (List Char)
  | [] => [[]]
  | c :: rest =>
    if lineEnds.contains c then [] :: lines rest
    else
      match lines rest with
      | [] => [[c]]
      | line :: others => (c :: line) :: others

/-- What stands behind a mark of three characters at the beginning of a line. -/
def behindMark? (mark : Char) (line : List Char) : Option (List Char) :=
  if line.take 3 = [mark, mark, mark] && (line.drop 3).head?.all isBlank then some (line.drop 3)
  else none

/-- The line is an empty flow mapping. -/
def isEmptyFlow (line : List Char) : Bool :=
  match skipBlanks line with
  | '\x7b' :: rest =>
    match skipBlanks rest with
    | '\x7d' :: rest => isFinished rest
    | _ => false
  | _ => false

/-- The depth of a line. -/
def indentation (line : List Char) : Nat :=
  (line.takeWhile (· = ' ')).length

/-- The line ends in a plain value, which may go on in the next line. -/
def runsOn (line : List Char) : Bool :=
  match scalar? (line.dropWhile (· = ' ')) with
  | none => false
  | some (_, left) =>
    match scalar? (skipBlanks ((skipBlanks left).drop 1)) with
    | some (.plain _, []) => true
    | _ => false

/-- No line has a tab in its indentation, except below a row of the mapping at `depth` whose
    plain value may go on (`open_`). -/
def hasPlainIndents (depth : Nat) (open_ : Bool) : List (List Char) → Bool
  | [] => true
  | line :: rest =>
    ((line.dropWhile (· = ' ')).head? ≠ some '\t' || (open_ && depth < indentation line)) &&
      hasPlainIndents depth (if (skipBlanks line).isEmpty then open_ else runsOn line) rest

/-- The rows on the lines with content; all of them stand equally deep. -/
def rowsOf? : List (List Char) → Option (List (String × Scalar))
  | [] => some []
  | line :: rest =>
    if isEmptyFlow line && rest.isEmpty then some []
    else if rest.all fun other => indentation other = indentation line then
      (line :: rest).mapM fun line => row? (line.dropWhile (· = ' '))
    else none

/-- The lines without the opening of the document, behind which there may be a flow mapping. -/
def withoutStart : List (List Char) → Option (List (List Char))
  | line :: rest =>
    match behindMark? '-' line with
    | none => some (line :: rest)
    | some behind =>
      if isFinished behind then some rest
      else if isEmptyFlow behind then some (behind :: rest)
      else none
  | [] => some []

/-- The lines without the end of the document, which follows something else. -/
def withoutEnd (content : List (List Char)) : List (List Char) :=
  match content.reverse with
  | line :: previous :: rest =>
    if (behindMark? '.' line).any isFinished then (previous :: rest).reverse else content
  | _ => content

/-- The rows of the mapping. -/
def readRows? (text : String) : Option (List (String × Scalar)) := do
  let all := lines text.toList
  let content ← withoutStart (withoutEnd (all.filter (!isFinished ·)))
  let depth := (content.head?.map indentation).getD 0
  if text.toList.all isAllowed && hasPlainIndents depth false all then rowsOf? content
  else none

/-! ## Types of plain scalars -/

/-- The digits of a base behind its mark, or decimal digits without a zero in front. -/
def magnitude? : List Char → Option Nat
  | '0' :: 'x' :: rest => ofDigits? 16 rest
  | '0' :: 'o' :: rest => ofDigits? 8 rest
  | '0' :: 'b' :: rest => ofDigits? 2 rest
  | '0' :: _ :: _ => none
  | cs => ofDigits? 10 cs

/-- The integer that a plain scalar spells. -/
def integer? (cs : List Char) : Option Int :=
  match cs with
  | '-' :: rest => (magnitude? rest).map fun n => -(n : Int)
  | '+' :: rest => (magnitude? rest).map fun n => (n : Int)
  | cs => (magnitude? cs).map fun n => (n : Int)

namespace Scalar

/-- The unsigned word that the scalar spells; a minus sign is no part of one. -/
def count? : Scalar → Option UInt64
  | plain text =>
    match text.toList with
    | '-' :: _ => none
    | cs => (integer? cs).bind fun n => if n < Word.size then some (UInt64.ofNat n.toNat) else none
  | quoted _ => none

/-- The signed word that the scalar spells. -/
def word? : Scalar → Option Int64
  | plain text => (integer? text.toList).bind Word.ofInt?
  | quoted _ => none

/-- The truth value that the scalar spells. -/
def flag? : Scalar → Option Bool
  | plain "true" | plain "True" | plain "TRUE" => some true
  | plain "false" | plain "False" | plain "FALSE" => some false
  | _ => none

/-- The scalar stands for nothing. -/
def isNull : Scalar → Bool
  | plain "" | plain "~" | plain "null" | plain "Null" | plain "NULL" => true
  | _ => false

/-- A plain scalar of this text is a text. -/
def isText (text : String) : Bool :=
  !(plain text).isNull && (plain text).flag?.isNone && (integer? text.toList).isNone

/-- A truth value as text. -/
def flagText (b : Bool) : String :=
  if b then "true" else "false"

/-- The scalar that a datum is written as; a name is quoted where it would not be a text. -/
def ofDatum : Datum → Scalar
  | .count n => plain (toString n.toNat)
  | .word n => plain (toString n.toInt)
  | .flag b => plain (flagText b)
  | .variant name => if isText name then plain name else quoted name

/-- The scalar as it is written. -/
def render : Scalar → String
  | plain text => text
  | quoted text => "'" ++ text ++ "'"

end Scalar

/-! ## Writing -/

/-- The line of a row. -/
def renderRow (row : String × Datum) : String :=
  row.1 ++ ": " ++ (Scalar.ofDatum row.2).render

/-- A line for every row. -/
def writeRows (rows : List (String × Datum)) : String :=
  String.join (rows.map fun row => renderRow row ++ "\n")

/-- The format of these texts. -/
def format : YamlFormat where
  Node := Scalar
  write? rows := some (writeRows rows)
  read? := readRows?
  count? := Scalar.count?
  word? := Scalar.word?
  flag? := Scalar.flag?
  variant? v := some v.text
  isNull := Scalar.isNull

end Yaml

/-! ## Configurations -/

namespace Config

/-- The configuration that a text gives, if it is valid. -/
def ofYaml (text : String) : Except QueryError Config :=
  ofYamlBy Yaml.format text

/-- The configuration as text. -/
def toYaml (c : Config) : String :=
  Yaml.writeRows c.rows

end Config

end StreamSql
