/-
  Precedence and associativity.

  A tree has the level of its operator (`level`), and it stands at a place that takes expressions
  of some level: operators that group to the left take the next tighter level on the right, a
  comparison has no comparison as an operand, and items, arguments and the parts of a CASE take
  any expression.  In the sparse style a tree is put in parentheses only if its level is looser
  than its place, in the full style every operator is, with its operands.

  * `derives_symbols`: the symbols of a tree, in either style, are derived at its level;
  * `parse_minimal`: the text in the sparse style is read as the tree.
-/
import Mathlib.Tactic.Common
import StreamSql.Proofs.Spelling

namespace StreamSql

/-! ## Levels -/

namespace BinaryOp

/-- The level of an operator. -/
def level : BinaryOp → Expr.Level
  | or => .or
  | and => .and
  | equal | notEqual | lessThan | lessOrEqual | greaterThan | greaterOrEqual | like | notLike
  | isIn | notIn => .comparison
  | concat => .concat
  | add | subtract => .additive
  | multiply | divide | modulo => .multiplicative

/-- The level of a left operand; a comparison is not the operand of another one. -/
def leftPlace (op : BinaryOp) : Expr.Level :=
  if op.level = .comparison then .concat else op.level

/-- The level of a right operand. -/
def rightPlace (op : BinaryOp) : Expr.Level := op.level.next

/-- The symbols of an operator. -/
def symbols : BinaryOp → List Symbol
  | add => [.mark .plus] | subtract => [.mark .minus] | multiply => [.mark .asterisk]
  | divide => [.mark .divide] | modulo => [.mark .percent] | equal => [.mark .equal]
  | notEqual => [.mark .notEqual] | lessThan => [.mark .lessThan]
  | lessOrEqual => [.mark .lessThanOrEqual] | greaterThan => [.mark .greaterThan]
  | greaterOrEqual => [.mark .greaterThanOrEqual] | and => [.mark .and_] | or => [.mark .or_]
  | like => [.mark .like] | notLike => [.mark .not_, .mark .like] | concat => [.mark .concat]
  | isIn => [.mark .in_] | notIn => [.mark .not_, .mark .in_]

theorem spelled_symbols (op : BinaryOp) : Symbol.AllSpelled op.symbols := by
  cases op <;> simp [symbols, Symbol.isSpelled_mark, TokenKind.spelling]

end BinaryOp

namespace Expr

/-- The level of a tree is that of its operator. -/
def level : Expr → Level
  | .binary op _ _ => op.level
  | .unary .not _ => .not
  | .unary .minus _ | .unary .plus _ => .sign
  | .unary .isNull _ | .unary .isNotNull _ | .between .. => .comparison
  | .literal value => value.level
  | .column _ | .call .. | .cases .. | .list _ | .slot _ => .primary

/-- An operator with its operands. -/
def isOperation : Expr → Bool
  | .binary .. | .unary .. | .between .. => true
  | _ => false

/-! ## The symbols of a tree -/

/-- Where parentheses are written. -/
inductive Style where
  /-- only where the levels require them -/
  | sparse
  /-- around every operator with its operands -/
  | full
  deriving DecidableEq

/-- The symbols of the tree `e` at a place, in parentheses if needed. -/
def enclose (style : Style) (place : Level) (e : Expr) (ls : List Symbol) : List Symbol :=
  if place.height < e.level.height ∨ style = .full ∧ e.isOperation then
    .mark .leftParen :: (ls ++ [.mark .rightParen])
  else ls

/-- The symbols between the parentheses of a call; the full style has a star in COUNT. -/
def argumentSymbols (style : Style) (name : String) (args : List (List Symbol)) : List Symbol :=
  if style = .full ∧ args.isEmpty ∧ Text.sameAscii name "COUNT" then [.mark .asterisk]
  else [.mark .comma].intercalate args

mutual

/-- The symbols of a tree, without parentheses around it. -/
def symbols (style : Style) : Expr → List Symbol
  | .column name => columnSymbols name
  | .literal value => value.symbols
  | .binary op left right =>
    enclose style op.leftPlace left (left.symbols style) ++
      (op.symbols ++ enclose style op.rightPlace right (right.symbols style))
  | .unary .not e => .mark .not_ :: enclose style .not e (e.symbols style)
  | .unary .minus e => .mark .minus :: enclose style .sign e (e.symbols style)
  | .unary .plus e => .mark .plus :: enclose style .sign e (e.symbols style)
  | .unary .isNull e => enclose style .concat e (e.symbols style) ++ [.mark .is_, .mark .null]
  | .unary .isNotNull e =>
    enclose style .concat e (e.symbols style) ++ [.mark .is_, .mark .not_, .mark .null]
  | .call name args =>
    .name name :: .mark .leftParen ::
      (argumentSymbols style name (symbolsOfEach style args) ++ [.mark .rightParen])
  | .cases operand branches otherwise =>
    .mark .case_ :: (symbolsOfOption style [] operand ++ (symbolsOfBranches style branches ++
      (symbolsOfOption style [.mark .else_] otherwise ++ [.mark .end_])))
  | .list items =>
    .mark .leftParen ::
      ([.mark .comma].intercalate (symbolsOfEach style items) ++ [.mark .rightParen])
  | .between negated e low high =>
    enclose style .concat e (e.symbols style) ++ (negation negated ++ .mark .between ::
      (enclose style .concat low (low.symbols style) ++ .mark .and_ ::
        enclose style .concat high (high.symbols style)))
  | .slot _ => []

/-- The symbols of each item. -/
def symbolsOfEach (style : Style) : List Expr → List (List Symbol)
  | [] => []
  | e :: rest => enclose style .or e (e.symbols style) :: symbolsOfEach style rest

/-- The symbols of an optional tree behind its lead. -/
def symbolsOfOption (style : Style) (lead : List Symbol) : Option Expr → List Symbol
  | none => []
  | some e => lead ++ enclose style .or e (e.symbols style)

/-- The symbols of the branches of a CASE. -/
def symbolsOfBranches (style : Style) : List (Expr × Expr) → List Symbol
  | [] => []
  | (condition, result) :: rest =>
    .mark .when_ :: (enclose style .or condition (condition.symbols style) ++
      .mark .then_ :: enclose style .or result (result.symbols style)) ++
      symbolsOfBranches style rest

end

/-- The text of a tree with blanks between all tokens, and with parentheses only where the levels
    require them. -/
def minimal (e : Expr) : String :=
  String.ofList (Token.spaced (e.symbols .sparse))

example : (binary .subtract (column "a") (binary .subtract (column "b") (column "c"))).minimal =
    "a - ( b - c )" := by decide

example : (binary .subtract (binary .subtract (column "a") (column "b")) (column "c")).minimal =
    "a - b - c" := by decide

/-! ## The symbols are derived -/

/-- An expression of a level is one of every looser level. -/
theorem Derives.loosen {a b : Level} {ls : List Symbol} {e : Expr} (h : Derives a ls e)
    (hab : a.height ≤ b.height) : Derives b ls e := by
  -- one level at a time, from the looser one down
  have hstep : ∀ b : Level, a.height ≤ b.height → a = b ∨
      b.next.height < b.height ∧ a.height ≤ b.next.height := by
    cases a <;> intro b <;> cases b <;> decide
  rcases hstep b hab with rfl | ⟨hlt, hle⟩
  · exact h
  · exact .next (h.loosen hle)
termination_by b.height

theorem Level.height_le_or (level : Level) : level.height ≤ Level.or.height := by
  cases level <;> decide

/-- A tree is derived at every place, in parentheses if its level is looser. -/
theorem Derives.enclose {e : Expr} {ls : List Symbol} (h : Derives e.level ls e) (style : Style)
    (place : Level) : Derives place (enclose style place e ls) e := by
  unfold Expr.enclose
  split
  · have hprimary : Derives .primary (.mark .leftParen :: (ls ++ [.mark .rightParen])) e :=
      .paren (h.loosen (Level.height_le_or _))
    exact hprimary.loosen (Nat.zero_le _)
  · next hplace => exact h.loosen (Nat.le_of_not_lt fun hlt => hplace (Or.inl hlt))

/-- What is not an operator with operands has no parentheses where its level fits. -/
theorem enclose_eq_self {style : Style} {place : Level} {e : Expr} {ls : List Symbol}
    (hlevel : e.level.height ≤ place.height) (h : e.isOperation = false) :
    enclose style place e ls = ls := by
  refine if_neg ?_
  simp only [h, Bool.false_eq_true, and_false, or_false]
  omega

/-- An operator between its operands. -/
theorem derives_binary {op : BinaryOp} (hin : op ≠ .isIn) (hnot : op ≠ .notIn)
    {ls ls' : List Symbol} {left right : Expr} (hl : Derives op.leftPlace ls left)
    (hr : Derives op.rightPlace ls' right) :
    Derives op.level (ls ++ (op.symbols ++ ls')) (.binary op left right) := by
  cases op with
  | isIn => exact absurd rfl hin
  | notIn => exact absurd rfl hnot
  | notLike => exact .notLike hl hr
  | equal | notEqual | lessThan | lessOrEqual | greaterThan | greaterOrEqual | like =>
    exact .comparison rfl hl hr
  | or | and | concat | add | subtract | multiply | divide | modulo => exact .chain rfl hl hr

theorem negated_of_not_number {e : Expr} (h : e.isNumber = false) :
    e.negated = .unary .minus e := by
  unfold negated
  split
  · cases h
  · cases h
  · rfl

section
variable {style : Style}

/-- A tree with its symbols, where any expression may stand. -/
def phrase (style : Style) (e : Expr) : Phrase := (enclose style .or e (e.symbols style), e)

theorem map_phrase (items : List Expr) : (items.map (phrase style)).map Prod.snd = items := by
  rw [List.map_map]
  exact List.map_id _

theorem map_phrase_option (e : Option Expr) : (e.map (phrase style)).map Prod.snd = e := by
  cases e <;> rfl

theorem symbolsOfEach_eq (items : List Expr) :
    symbolsOfEach style items = (items.map (phrase style)).map Prod.fst := by
  induction items with
  | nil => rfl
  | cons e rest ih => rw [symbolsOfEach, ih, List.map_cons, List.map_cons, phrase]

theorem symbolsOfBranches_eq (branches : List (Expr × Expr)) :
    symbolsOfBranches style branches =
      branchSymbols (branches.map fun b => (phrase style b.1, phrase style b.2)) := by
  induction branches with
  | nil => rfl
  | cons b rest ih =>
    rw [symbolsOfBranches, ih]
    simp [branchSymbols, phrase]

theorem symbolsOfOption_eq (e : Option Expr) :
    symbolsOfOption style [] e = ((e.map (phrase style)).map Prod.fst).getD [] := by
  cases e <;> rfl

theorem symbolsOfOption_end (otherwise : Option Expr) :
    symbolsOfOption style [.mark .else_] otherwise ++ [.mark .end_] =
      otherwiseSymbols (otherwise.map (phrase style)) := by
  cases otherwise <;> simp [otherwiseSymbols, symbolsOfOption, phrase]

/-- **The symbols of a tree** are derived at its level. -/
theorem derives_symbols (style : Style) {e : Expr} (h : Grammatical .written e) :
    Derives e.level (e.symbols style) e := by
  have hitems : ∀ {items : List Expr}, (∀ e ∈ items, Derives e.level (e.symbols style) e) →
      ∀ i ∈ items.map (phrase style), Derives .or i.1 i.2 := fun h =>
    List.forall_mem_map.2 fun e he => (h e he).enclose style .or
  have hoption : ∀ {o : Option Expr}, (∀ e ∈ o, Derives e.level (e.symbols style) e) →
      ∀ p ∈ o.map (phrase style), Derives .or p.1 p.2 := by
    rintro o ho _ hp
    obtain ⟨e, he, rfl⟩ := Option.map_eq_some_iff.1 hp
    exact (ho e he).enclose style .or
  induction h with
  | column _ => exact derives_column _
  | literal h => exact derives_literal h
  | binary hin hnot _ _ ihl ihr =>
    exact derives_binary hin hnot (ihl.enclose style _) (ihr.enclose style _)
  | @membership negated left items _ _ ihl ihi =>
    have hlist := Derives.membership negated (ihl.enclose style .concat) (hitems ihi)
    rw [map_phrase, separated, ← symbolsOfEach_eq] at hlist
    rw [symbols, enclose_eq_self (e := .list items) (Nat.zero_le _) rfl]
    cases negated <;> exact hlist
  | @unary op operand hop _ ih =>
    cases op with
    | not => exact .not (ih.enclose style _)
    | minus =>
      have hminus := Derives.minus (ih.enclose style .sign)
      rw [negated_of_not_number (hop.2 rfl)] at hminus
      exact hminus
    | plus => exact absurd rfl hop.1
    | isNull => exact .nullTest false (ih.enclose style _)
    | isNotNull => exact .nullTest true (ih.enclose style _)
  | @call name args _ _ ih =>
    rw [symbols, argumentSymbols]
    split
    · next hstar =>
      cases args with
      | nil => exact .star name
      | cons e rest => cases hstar.2.1
    · have hcall := Derives.call name (hitems ih)
      rw [map_phrase, separated, ← symbolsOfEach_eq] at hcall
      exact hcall
  | @cases operand otherwise branches hne _ _ _ _ iho ihc ihr ihe =>
    let phrases := branches.map fun b => (phrase style b.1, phrase style b.2)
    have hconditions : ∀ b ∈ phrases, Derives .or b.1.1 b.1.2 :=
      List.forall_mem_map.2 fun b hb => (ihc b hb).enclose style .or
    have hresults : ∀ b ∈ phrases, Derives .or b.2.1 b.2.2 :=
      List.forall_mem_map.2 fun b hb => (ihr b hb).enclose style .or
    have hcases := Derives.cases (by simpa [phrases] using hne) (hoption iho) hconditions hresults
      (hoption ihe)
    have hmap : phrases.map (fun b => (b.1.2, b.2.2)) = branches := by
      rw [List.map_map]
      exact List.map_id _
    rw [hmap, ← symbolsOfOption_eq, ← symbolsOfBranches_eq, ← symbolsOfOption_end,
      map_phrase_option, map_phrase_option] at hcases
    exact hcases
  | between _ _ _ ih₁ ih₂ ih₃ =>
    exact .between _ (ih₁.enclose style _) (ih₂.enclose style _) (ih₃.enclose style _)

/-! ## The symbols can be written -/

theorem spelled_enclose {e : Expr} {ls : List Symbol} (h : Symbol.AllSpelled ls) (place : Level) :
    Symbol.AllSpelled (enclose style place e ls) := by
  unfold enclose
  split
  · simp [Symbol.isSpelled_mark, TokenKind.spelling, h]
  · exact h

theorem spelled_each {items : List Expr}
    (h : ∀ e ∈ items, Symbol.AllSpelled (e.symbols style)) :
    Symbol.AllSpelled ([.mark .comma].intercalate (symbolsOfEach style items)) := by
  intro s hs
  rw [symbolsOfEach_eq, List.map_map] at hs
  rcases Token.mem_of_mem_intercalate hs with rfl | ⟨ls, hls, hs⟩
  · exact Symbol.isSpelled_mark.2 (by decide)
  · obtain ⟨e, he, rfl⟩ := List.mem_map.1 hls
    exact spelled_enclose (h e he) .or s hs

theorem spelled_branches {branches : List (Expr × Expr)}
    (hc : ∀ b ∈ branches, Symbol.AllSpelled (b.1.symbols style))
    (hr : ∀ b ∈ branches, Symbol.AllSpelled (b.2.symbols style)) :
    Symbol.AllSpelled (symbolsOfBranches style branches) := by
  induction branches with
  | nil => exact Symbol.allSpelled_nil
  | cons b rest ih =>
    obtain ⟨hcondition, hc⟩ := List.forall_mem_cons.1 hc
    obtain ⟨hresult, hr⟩ := List.forall_mem_cons.1 hr
    simp [symbolsOfBranches, Symbol.isSpelled_mark, TokenKind.spelling, spelled_enclose hcondition,
      spelled_enclose hresult, ih hc hr]

theorem spelled_option {lead : List Symbol} (hlead : Symbol.AllSpelled lead) {e : Option Expr}
    (h : ∀ a ∈ e, Symbol.AllSpelled (a.symbols style)) :
    Symbol.AllSpelled (symbolsOfOption style lead e) := by
  cases e with
  | none => exact Symbol.allSpelled_nil
  | some e => exact Symbol.allSpelled_append.2 ⟨hlead, spelled_enclose (h e rfl) .or⟩

/-- **The symbols of a tree** can be written. -/
theorem spelled_symbols (style : Style) {e : Expr} (h : Grammatical .written e) :
    Symbol.AllSpelled (e.symbols style) := by
  have hmark := @Symbol.isSpelled_mark
  induction h with
  | column h => exact spelled_column h
  | literal h => exact spelled_literal h
  | @binary op _ _ _ _ _ _ ihl ihr =>
    simp [symbols, spelled_enclose ihl, spelled_enclose ihr, op.spelled_symbols]
  | @membership negated left items _ _ ihl ihi =>
    rw [symbols, enclose_eq_self (e := .list items) (Nat.zero_le _) rfl]
    simp [symbols, hmark, TokenKind.spelling, spelled_enclose ihl, spelled_each ihi,
      (membership negated).spelled_symbols]
  | @unary op operand hop _ ih =>
    cases op <;> simp [symbols, hmark, TokenKind.spelling, spelled_enclose ih]
  | @call name args hname _ ih =>
    have hname' : (Symbol.name name).IsSpelled := hname
    rw [symbols, argumentSymbols]
    split
    · simp [hmark, TokenKind.spelling, hname']
    · simp [hmark, TokenKind.spelling, hname', spelled_each ih]
  | @cases operand otherwise branches hne _ _ _ _ iho ihc ihr ihe =>
    have helse : Symbol.AllSpelled [.mark .else_] := by simp [hmark, TokenKind.spelling]
    simp [symbols, hmark, TokenKind.spelling, spelled_option Symbol.allSpelled_nil iho,
      spelled_branches ihc ihr, spelled_option helse ihe]
  | @between negated _ _ _ _ _ _ ih₁ ih₂ ih₃ =>
    have hnegation : Symbol.AllSpelled (negation negated) := by
      cases negated <;> simp [negation, hmark, TokenKind.spelling]
    simp [symbols, hmark, TokenKind.spelling, hnegation, spelled_enclose ih₁, spelled_enclose ih₂,
      spelled_enclose ih₃]

end

/-- **Precedence and associativity**: a tree is read from its text with as few parentheses as
    possible. -/
theorem parse_minimal {e : Expr} (h : Grammatical .written e) :
    parse .unlimited e.minimal = .ok e := by
  obtain ⟨tokens, htokens, hls⟩ := Token.lexes_spaced (spelled_symbols .sparse h) 0
  have hread := ofTokens_of_derives ((derives_symbols .sparse h).loosen (Level.height_le_or _)) hls
  rw [parse, Token.tokenize, minimal, String.toList_ofList, htokens]
  exact hread

/-- A range whose bound is a sum, below a negation and a conjunction. -/
theorem parse_minimal_between :
    let range := between true (column "a.b") (literal (.integer 1))
      (binary .add (column "c") (literal (.integer 1)))
    let e := binary .and (unary .not (binary .or range (column "d")))
      (binary .isIn (column "a.b") (.list [literal .null, call "f" []]))
    Grammatical .written e ∧
      e.minimal = "NOT ( a . b NOT BETWEEN 1 AND c + 1 OR d ) AND a . b IN ( NULL , f ( ) )" ∧
      parse .unlimited
        "NOT ( a . b NOT BETWEEN 1 AND c + 1 OR d ) AND a . b IN ( NULL , f ( ) )" = .ok e := by
  intro range e
  have hcolumn : ∀ name ∈ ["a.b", "c", "d"], Grammatical .written (column name) := by
    have hpath : ∀ name ∈ ["a.b", "c", "d"], Token.isPath name = true := by decide
    exact fun name h => .column (hpath name h)
  have hone : Grammatical .written (literal (.integer 1)) :=
    .literal (show Word.least < (1 : Int64).toInt by decide +kernel)
  have hcall : Grammatical .written (call "f" []) :=
    .call (show Token.isName "f" = true by decide) (List.forall_mem_nil _)
  have hrange : Grammatical .written range :=
    .between (hcolumn _ (by decide)) hone (.binary nofun nofun (hcolumn _ (by decide)) hone)
  have hitems : ∀ i ∈ [literal .null, call "f" []], Grammatical .written i :=
    List.forall_mem_cons.2 ⟨.literal trivial, List.forall_mem_singleton.2 hcall⟩
  have hor : Grammatical .written (binary .or range (column "d")) :=
    .binary nofun nofun hrange (hcolumn _ (by decide))
  have hin : Grammatical .written
      (binary (membership false) (column "a.b") (.list [literal .null, call "f" []])) :=
    .membership (hcolumn _ (by decide)) hitems
  have he : Grammatical .written e := .binary nofun nofun (.unary ⟨nofun, nofun⟩ hor) hin
  have htext : e.minimal =
      "NOT ( a . b NOT BETWEEN 1 AND c + 1 OR d ) AND a . b IN ( NULL , f ( ) )" := by
    decide +kernel
  exact ⟨he, htext, htext ▸ parse_minimal he⟩

end Expr

end StreamSql
