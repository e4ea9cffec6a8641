/-
  Regular expressions.

  * `Regex.read? text`: the expression that a text spells.  It may begin with `(?s)`, after which
    `.` stands for line feeds too; then follow the ends of the text, `^` and `$`, and characters,
    each perhaps with a `*` behind it.  A character that means something in an expression stands
    for itself behind a backslash, as `escape` writes it;
  * `Regex.isMatch r text`: some part of the text matches the expression.  The items are taken one
    after the other, with a flag for each place of the text at which they may end (`advance`);
  * `RegexEngine`: what compiles the texts of expressions and looks for matches; `Regex.engine` is
    the one of these definitions.

  An expression may not be arbitrarily large.  Its size is that of two automata that read the
  encoded text byte by byte, one from the front and one from the back (`Footprint`), and each of
  them may take `sizeLimit` bytes.
-/

namespace StreamSql

namespace Regex

/-- What stands for one character: `.`, or a character itself. -/
inductive Atom where
  | any
  | char (c : Char)
  deriving DecidableEq, Repr

/-- An item of an expression: an end of the text, one character, or any number of characters. -/
inductive Item where
  | start
  | stop
  | one (a : Atom)
  | many (a : Atom)
  deriving DecidableEq, Repr

end Regex

/-- An expression; `dotAll` tells whether `.` stands for line feeds too. -/
structure Regex where
  dotAll : Bool
  items : List Regex.Item
  deriving DecidableEq, Repr

namespace Regex

/-! ## Texts of expressions -/

/-- The characters that mean something in an expression, or may come to do so. -/
def metaCharacters : List Char :=
  ['\\', '.', '+', '*', '?', '(', ')', '|', '[', ']', '\x7b', '\x7d', '^', '$', '#', '&', '-', '~']

/-- The text that stands for a character. -/
def escape (c : Char) : List Char :=
  if c ∈ metaCharacters then ['\\', c] else [c]

/-- What has been read: the items, the last one first, and whether a backslash was the last
    character. -/
structure Reading where
  escaped : Bool := false
  items : List Item := []

/-- One character more. -/
def Reading.next (r : Reading) (c : Char) : Option Reading :=
  if r.escaped then
    if c ∈ metaCharacters then some ⟨false, .one (.char c) :: r.items⟩ else none
  else
    match c with
    | '\\' => some ⟨true, r.items⟩
    | '^' => some ⟨false, .start :: r.items⟩
    | '$' => some ⟨false, .stop :: r.items⟩
    | '.' => some ⟨false, .one .any :: r.items⟩
    | '*' =>
      match r.items with
      | .one a :: before => some ⟨false, .many a :: before⟩
      | _ => none
    | c => if c ∈ metaCharacters then none else some ⟨false, .one (.char c) :: r.items⟩

/-- The items that a text spells. -/
def readItems? (cs : List Char) : Option (List Item) :=
  (cs.foldlM Reading.next {}).bind fun r => if r.escaped then none else some r.items.reverse

/-- The expression that a text spells. -/
def read? (text : String) : Option Regex :=
  match text.toList with
  | '(' :: '?' :: 's' :: ')' :: cs => (readItems? cs).map (⟨true, ·⟩)
  | cs => (readItems? cs).map (⟨false, ·⟩)

/-! ## Matches -/

/-- The atom stands for this character. -/
def Atom.accepts (dotAll : Bool) : Atom → Char → Bool
  | any, c => dotAll || c != '\n'
  | char d, c => c == d

namespace Item

/-- The item may match nothing at a place, which may be the first or the last one. -/
def matchesNothing (first last : Bool) : Item → Bool
  | start => first
  | stop => last
  | one _ => false
  | many _ => true

/-- The item may match a character and end behind it, given whether it may begin in front of the
    character and whether it may end there. -/
def consumes (dotAll : Bool) (c : Char) (begins ends : Bool) : Item → Bool
  | start | stop => false
  | one a => begins && a.accepts dotAll c
  | many a => ends && a.accepts dotAll c

/-- The places of the text at which the item may end, given those at which it may begin.  `carried`
    tells whether it may end at the first of them, having begun further in front. -/
def advance (dotAll : Bool) (item : Item) (first carried : Bool) : List Char → List Bool → List Bool
  | [], begins => begins.map fun b => carried || (b && item.matchesNothing first true)
  | _ :: _, [] => []
  | c :: cs, b :: begins =>
    let ends := carried || (b && item.matchesNothing first false)
    ends :: advance dotAll item false (item.consumes dotAll c b ends) cs begins

end Item

/-- Some part of the text matches the expression. -/
def isMatch (r : Regex) (text : List Char) : Bool :=
  let everywhere := List.replicate (text.length + 1) true
  (r.items.foldl (fun begins item => item.advance r.dotAll true false text begins)
    everywhere).any id

/-! ## Size -/

/-- The greatest size of an automaton in bytes. -/
def sizeLimit : Nat := 10485760

/-- What the parts of an expression take in an automaton, in bytes. -/
structure Footprint where
  /-- the ends of the text -/
  frame : Nat
  /-- one byte of a character that stands for itself -/
  byte : Nat
  /-- any one character -/
  anyChar : Nat
  /-- the loop around a character -/
  loop : Nat

namespace Footprint

/-- From the front, the nine forms of an encoded character share their last bytes: nine
    states of 32 bytes with 16 transitions of 8 bytes. -/
def forward : Footprint :=
  { frame := 6 * 32, byte := 32, anyChar := 9 * 32 + 16 * 8, loop := 32 + 2 * 4 }

/-- From the back, each of the nine forms has the states of its own bytes, 27 in all, and a
    branch of 4 bytes leads to it. -/
def backward : Footprint :=
  { frame := 4 * 32, byte := 32, anyChar := (27 + 2) * 32 + 9 * 4, loop := 32 + 2 * 4 }

/-- The bytes for an atom. -/
def ofAtom (f : Footprint) : Atom → Nat
  | .any => f.anyChar
  | .char c => c.utf8Size * f.byte

/-- The bytes for an item; those for the ends of the text are counted apart. -/
def ofItem (f : Footprint) : Item → Nat
  | .start | .stop => 0
  | .one a => f.ofAtom a
  | .many a => f.ofAtom a + f.loop

/-- The bytes for an expression. -/
def ofRegex (f : Footprint) (r : Regex) : Nat :=
  r.items.foldl (fun size item => size + f.ofItem item) f.frame

end Footprint

/-- The expression is too large. -/
def isTooLarge (r : Regex) : Bool :=
  sizeLimit < Footprint.forward.ofRegex r || sizeLimit < Footprint.backward.ofRegex r

end Regex

/-! ## Engines -/

/-- What compiles the texts of expressions, unless it refuses them, and looks for matches. -/
structure RegexEngine where
  Program : Type
  compile : String → Option Program
  isMatch : Program → String → Bool

/-- The engine of the definitions above. -/
def Regex.engine : RegexEngine where
  Program := Regex
  compile text := (read? text).filter fun r => !r.isTooLarge
  isMatch r text := r.isMatch text.toList

end StreamSql
