/-
  Reading JSON text.

  The grammar is the strict one: no text behind the value, no comma before a closing
  bracket, no comments, no leading zeros, no control characters inside a text and no lone
  surrogates.  Of rows with one name the last one counts.  Containers nested more than
  127 deep are refused.

  Each reader returns the characters behind what it read, which are fewer than before.
-/
import StreamSql.Json.Number
import StreamSql.Remainder

namespace StreamSql.Json

/-- A reading that uses up at least one character. -/
abbrev Reading (α : Type) (cs : List Char) :=
  Option (α × { rest : List Char // rest.length < cs.length })

/-- A blank between the elements of a text. -/
def isSpace (c : Char) : Bool :=
  c = ' ' || c = '\n' || c = '\t' || c = '\r'

/-- The characters behind leading blanks. -/
def skipSpaces (cs : List Char) : List Char :=
  cs.dropWhile isSpace

theorem length_skipSpaces_le (cs : List Char) : (skipSpaces cs).length ≤ cs.length :=
  (List.dropWhile_sublist isSpace).length_le

/-! ## Texts -/

/-- The value of a hexadecimal digit. -/
def hexDigit? (c : Char) : Option Nat :=
  if c.isDigit then some (c.toNat - '0'.toNat)
  else if 'a' ≤ c ∧ c ≤ 'f' then some (c.toNat - 'a'.toNat + 10)
  else if 'A' ≤ c ∧ c ≤ 'F' then some (c.toNat - 'A'.toNat + 10)
  else none

/-- The value of four hexadecimal digits. -/
def hexQuad? (a b c d : Char) : Option Nat := do
  let a ← hexDigit? a
  let b ← hexDigit? b
  let c ← hexDigit? c
  let d ← hexDigit? d
  return ((a * 16 + b) * 16 + c) * 16 + d

/-- The character that a one-letter escape stands for. -/
def escape? : Char → Option Char
  | '\x22' => some '\x22'
  | '\\' => some '\\'
  | '/' => some '/'
  | 'b' => some '\x08'
  | 'f' => some '\x0c'
  | 'n' => some '\n'
  | 'r' => some '\r'
  | 't' => some '\t'
  | _ => none

/-- The character of a pair of surrogates. -/
def pair? (high low : Nat) : Option Char :=
  if 0xD800 ≤ high ∧ high < 0xDC00 ∧ 0xDC00 ≤ low ∧ low < 0xE000 then
    some (Char.ofNat (0x10000 + (high - 0xD800) * 0x400 + (low - 0xDC00)))
  else
    none

/-- The character of a code unit that is no surrogate. -/
def single? (unit : Nat) : Option Char :=
  if 0xD800 ≤ unit ∧ unit < 0xE000 then none else some (Char.ofNat unit)

/-- What is left behind a numeric escape is shorter than the escape with what follows it. -/
theorem lt_unit {a b c d : Char} {rest rest' : List Char} (h : rest'.length < rest.length) :
    rest'.length < ('\\' :: 'u' :: a :: b :: c :: d :: rest).length := by
  simp only [List.length_cons]
  omega

/-- What is left behind a pair of numeric escapes is shorter than the pair with what follows
    it. -/
theorem lt_pair {a b c d e f g h : Char} {rest rest' : List Char}
    (hr : rest'.length < rest.length) :
    rest'.length < ('\\' :: 'u' :: a :: b :: c :: d ::
      '\\' :: 'u' :: e :: f :: g :: h :: rest).length := by
  simp only [List.length_cons]
  omega

/-- The characters of a text behind its opening quote, up to the closing one. -/
def readText (cs : List Char) : Reading (List Char) cs :=
  match cs with
  | '\x22' :: rest => some ([], ⟨rest, Remainder.lt_cons '\x22' rest⟩)
  | '\\' :: 'u' :: a :: b :: c :: d :: rest =>
    match hexQuad? a b c d with
    | none => none
    | some unit =>
      match single? unit with
      | some x => do
        let (inner, ⟨rest', h⟩) ← readText rest
        return (x :: inner, ⟨rest', lt_unit h⟩)
      | none =>
        match rest with
        | '\\' :: 'u' :: e :: f :: g :: h :: rest => do
          let low ← hexQuad? e f g h
          let x ← pair? unit low
          let (inner, ⟨rest', hr⟩) ← readText rest
          return (x :: inner, ⟨rest', lt_pair hr⟩)
        | _ => none
  | '\\' :: c :: rest => do
    let x ← escape? c
    let (inner, ⟨rest', h⟩) ← readText rest
    return (x :: inner, ⟨rest', Remainder.lt_cons₂_of_lt h⟩)
  | c :: rest =>
    if c = '\\' ∨ c.toNat < 0x20 then none
    else do
      let (inner, ⟨rest', h⟩) ← readText rest
      return (c :: inner, ⟨rest', Remainder.lt_cons_of_lt h⟩)
  | [] => none
termination_by cs.length

/-! ## Numbers -/

/-- The digits in front, and the characters behind them. -/
def digits (cs : List Char) : List Char × List Char :=
  (cs.takeWhile Char.isDigit, cs.dropWhile Char.isDigit)

theorem length_digits_le (cs : List Char) : (digits cs).2.length ≤ cs.length :=
  (List.dropWhile_sublist Char.isDigit).length_le

theorem length_fraction_le (cs : List Char) : (digits cs).2.length ≤ ('.' :: cs).length :=
  Nat.le_succ_of_le (length_digits_le cs)

/-- The fraction behind a point; there is one only with a digit. -/
def readFraction (cs : List Char) :
    Option (Option (List Char) × { rest : List Char // rest.length ≤ cs.length }) :=
  match cs with
  | '.' :: rest =>
    if (digits rest).1 = [] then none
    else some (some (digits rest).1, ⟨(digits rest).2, length_fraction_le rest⟩)
  | cs => some (none, ⟨cs, Remainder.le_self cs⟩)

/-- The digits of an exponent and its sign. -/
def exponentParts (cs : List Char) : Bool × List Char :=
  match cs with
  | '+' :: rest => (false, rest)
  | '-' :: rest => (true, rest)
  | cs => (false, cs)

theorem length_exponentParts_le (cs : List Char) : (exponentParts cs).2.length ≤ cs.length := by
  unfold exponentParts
  split <;> simp

theorem length_exponent_le (c : Char) (cs : List Char) :
    (digits (exponentParts cs).2).2.length ≤ (c :: cs).length :=
  Nat.le_succ_of_le (Nat.le_trans (length_digits_le _) (length_exponentParts_le cs))

/-- The exponent behind its mark; there is one only with a digit. -/
def readExponent (cs : List Char) :
    Option (Option (Bool × List Char) × { rest : List Char // rest.length ≤ cs.length }) :=
  match cs with
  | c :: rest =>
    if c = 'e' ∨ c = 'E' then
      if (digits (exponentParts rest).2).1 = [] then none
      else
        some (some ((exponentParts rest).1, (digits (exponentParts rest).2).1),
          ⟨(digits (exponentParts rest).2).2, length_exponent_le c rest⟩)
    else
      some (none, ⟨c :: rest, Nat.le_refl _⟩)
  | [] => some (none, ⟨[], Remainder.le_self []⟩)

/-- A number without its sign. -/
def readMagnitude (negative : Bool) (cs : List Char) : Reading Json cs :=
  match cs with
  | c :: rest =>
    if c.isDigit then
      if c = '0' ∧ (digits rest).1 ≠ [] then none
      else do
        let (fraction, ⟨rest₁, h₁⟩) ← readFraction (digits rest).2
        let (exponent, ⟨rest₂, h₂⟩) ← readExponent rest₁
        let n ← NumberText.value? ⟨negative, c :: (digits rest).1, fraction, exponent⟩
        have h := length_digits_le rest
        return (n, ⟨rest₂, by simp only [List.length_cons]; omega⟩)
    else
      none
  | [] => none

/-! ## Values -/

/-- The characters behind a word, if the text starts with it. -/
def skipWord? : List Char → List Char → Option (List Char)
  | [], cs => some cs
  | w :: word, c :: cs => if w = c then skipWord? word cs else none
  | _ :: _, [] => none

theorem length_skipWord?_le {word cs rest : List Char} (h : skipWord? word cs = some rest) :
    rest.length ≤ cs.length := by
  fun_induction skipWord? word cs with
  | case1 => simp_all
  | case2 w word cs ih => exact Nat.le_succ_of_le (ih h)
  | case3 => simp at h
  | case4 => simp at h

/-- A word that stands for a value. -/
def readWord (word : List Char) (value : Json) (c : Char) (cs : List Char) :
    Reading Json (c :: cs) :=
  match h : skipWord? word cs with
  | some rest => some (value, ⟨rest, Nat.lt_succ_of_le (length_skipWord?_le h)⟩)
  | none => none

mutual

/-- A value; `depth` is the number of containers that may still be opened. -/
def readValue (depth : Nat) (cs : List Char) : Reading Json cs :=
  have hs := length_skipSpaces_le cs
  match h : skipSpaces cs with
  | [] => none
  | c :: rest =>
    have hl : rest.length < cs.length := by simp only [h, List.length_cons] at hs; omega
    if c = '\x22' then do
      let (inner, ⟨rest', h'⟩) ← readText rest
      return (.text (String.ofList inner), ⟨rest', by omega⟩)
    else if c = '[' then
      match depth with
      | 0 => none
      | depth + 1 =>
        have hs' := length_skipSpaces_le rest
        match hr : skipSpaces rest with
        | ']' :: rest' => some (.array [], ⟨rest', by simp only [hr, List.length_cons] at hs'; omega⟩)
        | _ => do
          let (items, ⟨rest', h'⟩) ← readItems depth rest
          return (.array items, ⟨rest', by omega⟩)
    else if c = '\x7b' then
      match depth with
      | 0 => none
      | depth + 1 =>
        have hs' := length_skipSpaces_le rest
        match hr : skipSpaces rest with
        | '\x7d' :: rest' =>
          some (.object [], ⟨rest', by simp only [hr, List.length_cons] at hs'; omega⟩)
        | _ => do
          let (rows, ⟨rest', h'⟩) ← readRows depth rest
          return (.object (Table.ofRows rows), ⟨rest', by omega⟩)
    else if c = '-' then do
      let (n, ⟨rest', h'⟩) ← readMagnitude true rest
      return (n, ⟨rest', by omega⟩)
    else if c = 't' then do
      let (v, ⟨rest', h'⟩) ← readWord "rue".toList (.boolean true) c rest
      return (v, ⟨rest', by simp only [List.length_cons] at h'; omega⟩)
    else if c = 'f' then do
      let (v, ⟨rest', h'⟩) ← readWord "alse".toList (.boolean false) c rest
      return (v, ⟨rest', by simp only [List.length_cons] at h'; omega⟩)
    else if c = 'n' then do
      let (v, ⟨rest', h'⟩) ← readWord "ull".toList .null c rest
      return (v, ⟨rest', by simp only [List.length_cons] at h'; omega⟩)
    else do
      let (n, ⟨rest', h'⟩) ← readMagnitude false (c :: rest)
      return (n, ⟨rest', by simp only [List.length_cons] at h'; omega⟩)
termination_by (cs.length, 0)
decreasing_by
  all_goals simp [Prod.lex_def]
  all_goals omega

/-- The items of an array up to its closing bracket. -/
def readItems (depth : Nat) (cs : List Char) : Reading (List Json) cs := do
  let (v, ⟨rest, h⟩) ← readValue depth cs
  have hs := length_skipSpaces_le rest
  match hr : skipSpaces rest with
  | ',' :: rest' =>
    have hl : rest'.length < cs.length := by simp only [hr, List.length_cons] at hs; omega
    let (items, ⟨rest'', h''⟩) ← readItems depth rest'
    return (v :: items, ⟨rest'', by omega⟩)
  | ']' :: rest' =>
    return ([v], ⟨rest', by simp only [hr, List.length_cons] at hs; omega⟩)
  | _ => none
termination_by (cs.length, 1)
decreasing_by
  all_goals simp [Prod.lex_def]
  all_goals omega

/-- The rows of an object up to its closing brace. -/
def readRows (depth : Nat) (cs : List Char) : Reading (List (String × Json)) cs :=
  have hs := length_skipSpaces_le cs
  match hc : skipSpaces cs with
  | '\x22' :: rest => do
    have hl : rest.length < cs.length := by simp only [hc, List.length_cons] at hs; omega
    let (name, ⟨rest₁, h₁⟩) ← readText rest
    have hs₁ := length_skipSpaces_le rest₁
    match hn : skipSpaces rest₁ with
    | ':' :: rest₂ =>
      have hl₂ : rest₂.length < cs.length := by simp only [hn, List.length_cons] at hs₁; omega
      let (v, ⟨rest₃, h₃⟩) ← readValue depth rest₂
      have hs₃ := length_skipSpaces_le rest₃
      match hv : skipSpaces rest₃ with
      | ',' :: rest₄ =>
        have hl₄ : rest₄.length < cs.length := by
          simp only [hv, List.length_cons] at hs₃; omega
        let (rows, ⟨rest₅, h₅⟩) ← readRows depth rest₄
        return ((String.ofList name, v) :: rows, ⟨rest₅, by omega⟩)
      | '\x7d' :: rest₄ =>
        return ([(String.ofList name, v)],
          ⟨rest₄, by simp only [hv, List.length_cons] at hs₃; omega⟩)
      | _ => none
    | _ => none
  | _ => none
termination_by (cs.length, 1)
decreasing_by
  all_goals simp [Prod.lex_def]
  all_goals omega

end

/-- The JSON value that a text spells. -/
def parse? (text : String) : Option Json := do
  let (v, ⟨rest, _⟩) ← readValue 127 text.toList
  if skipSpaces rest = [] then return v else none

end StreamSql.Json
