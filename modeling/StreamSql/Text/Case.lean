/-
  Full case mapping of text.

  * `upper s`, `lower s`: the full Unicode mappings, in which a character may become
    several (`ß` becomes `SS`);
  * a capital sigma becomes the final form `ς` when a cased letter precedes it and none
    follows it, case-ignorable characters left out of account;
  * `foldAscii s`: only the ASCII letters are mapped, so that `sameAscii` compares text
    up to the case of ASCII letters.
-/
import StreamSql.Text.CaseTable

namespace StreamSql.Text

/-- The image of a non-ASCII character under sequences and runs; itself if none has it. -/
def mapByTable (sequences : List (Nat × List Nat)) (runs : List CaseRun) (c : Char) : List Char :=
  match sequences.lookup c.toNat with
  | some ns => ns.map Char.ofNat
  | none =>
    match runs.findSome? (fun run => run.image? c.toNat) with
    | some n => [Char.ofNat n]
    | none => [c]

/-- The upper-case form of a character. -/
def upperChar (c : Char) : List Char :=
  if c.toNat < 0x80 then [c.toUpper] else mapByTable upperSequences upperRuns c

/-- The lower-case form of a character, away from the final sigma. -/
def lowerChar (c : Char) : List Char :=
  if c.toNat < 0x80 then [c.toLower] else mapByTable lowerSequences lowerRuns c

/-- The text in upper case. -/
def upper (s : String) : String :=
  String.ofList (s.toList.flatMap upperChar)

/-- The next character that is not case-ignorable, if any, is cased. -/
def meetsCased (cs : List Char) : Bool :=
  match cs.dropWhile (CharRange.holds caseIgnorableRanges) with
  | [] => false
  | c :: _ => CharRange.holds casedRanges c

/-- The characters in lower case; `before` holds the characters already passed, the
    nearest first. -/
def lowerChars (before : List Char) : List Char → List Char
  | [] => []
  | c :: rest =>
    (if c = 'Σ' then
      if meetsCased before && !meetsCased rest then ['ς'] else ['σ']
    else
      lowerChar c) ++ lowerChars (c :: before) rest

/-- The text in lower case. -/
def lower (s : String) : String :=
  String.ofList (lowerChars [] s.toList)

/-- The text with its ASCII letters in lower case. -/
def foldAscii (s : String) : String :=
  s.map Char.toLower

/-- The texts are equal up to the case of ASCII letters. -/
def sameAscii (a b : String) : Bool :=
  foldAscii a == foldAscii b

end StreamSql.Text
