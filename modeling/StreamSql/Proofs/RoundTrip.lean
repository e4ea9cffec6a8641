/-
  The text of a tree is read as the tree.

  * `Writes text ls`: in front of what may follow an expression, the text is read as these symbols;
    a text that follows an expression may be put behind it (`Follows`, `Writes.append`);
  * `legible_of_grammatical`: the text of a tree is read as its symbols in the full style;
  * `parse_render`: a tree that is read from a text is read from its own text again.
-/
import Mathlib.Tactic.Common
import StreamSql.Proofs.Precedence
import StreamSql.Proofs.Rendering

namespace StreamSql

theorem ends_nil : Ends [] := nofun

theorem ends_blank (text : List Char) : Ends (' ' :: text) := by
  rintro _ ⟨⟩
  exact Or.inl rfl

theorem Ends.append {a b : List Char} (ha : Ends a) (hb : Ends b) : Ends (a ++ b) := by
  cases a with
  | nil => exact hb
  | cons c cs => exact ha

theorem Ends.stops_symbol {text : List Char} (h : Ends text) (s : Symbol) :
    Stops s.goesOn text := by
  intro c hc
  rcases h c hc with rfl | rfl | rfl
  all_goals
    cases s with
    | name | number | text => rfl
    | mark kind => cases kind <;> rfl

namespace Expr

/-! ## Texts in front of what may follow an expression -/

/-- In front of what may follow an expression, the text is read as these symbols. -/
def Writes (text : List Char) (ls : List Symbol) : Prop :=
  ∀ (rest : List Char) (k : List Symbol), Ends rest → Token.Lexes rest k →
    Token.Lexes (text ++ rest) (ls ++ k)

/-- Behind an expression, the text is read as these symbols. -/
def Follows (text : List Char) (ls : List Symbol) : Prop :=
  Ends text ∧ Writes text ls

theorem writes_nil : Writes [] [] := fun _ _ _ h => h

theorem follows_nil : Follows [] [] := ⟨ends_nil, writes_nil⟩

theorem writes_symbol {s : Symbol} (h : s.IsSpelled) : Writes s.source [s] :=
  fun _ _ hends hrest => hrest.symbol h (hends.stops_symbol s)

section
variable {a b : List Char} {ls ls' : List Symbol}

theorem Writes.append (ha : Writes a ls) (hb : Follows b ls') : Writes (a ++ b) (ls ++ ls') := by
  intro rest k hends hrest
  rw [List.append_assoc, List.append_assoc]
  exact ha _ _ (hb.1.append hends) (hb.2 _ _ hends hrest)

theorem Follows.append (ha : Follows a ls) (hb : Follows b ls') : Follows (a ++ b) (ls ++ ls') :=
  ⟨ha.1.append hb.1, ha.2.append hb⟩

theorem Writes.behind_blank (h : Writes a ls) : Follows (' ' :: a) ls :=
  ⟨ends_blank a, fun _ _ hends hrest => (h _ _ hends hrest).blank⟩

theorem Writes.blank (ha : Writes a ls) (hb : Writes b ls') : Writes (a ++ ' ' :: b) (ls ++ ls') :=
  ha.append hb.behind_blank

/-- A parenthesis or a comma may stand in front of everything. -/
theorem lexes_mark (kind : TokenKind) (hkind : kind ∈ [.leftParen, .rightParen, .comma])
    {rest : List Char} {k : List Symbol} (h : Token.Lexes rest k) :
    Token.Lexes (kind.spelling.toList ++ rest) (.mark kind :: k) := by
  have hall : ∀ kind ∈ [TokenKind.leftParen, .rightParen, .comma],
      kind.spelling ≠ "" ∧ ∀ c, (Symbol.mark kind).goesOn c = false := by
    simp only [List.forall_mem_cons]
    exact ⟨⟨by decide, fun _ => rfl⟩, ⟨by decide, fun _ => rfl⟩, ⟨by decide, fun _ => rfl⟩, nofun⟩
  obtain ⟨hspelled, hstops⟩ := hall kind hkind
  exact h.symbol (s := .mark kind) hspelled fun c _ => hstops c

theorem Writes.paren (h : Writes a ls) :
    Writes ('(' :: (a ++ [')'])) (.mark .leftParen :: (ls ++ [.mark .rightParen])) := by
  intro rest k _ hrest
  have hclose : Token.Lexes (')' :: rest) (.mark .rightParen :: k) :=
    lexes_mark .rightParen (by decide) hrest
  have hends : Ends (')' :: rest) := by
    rintro _ ⟨⟩
    exact Or.inr (Or.inl rfl)
  have hopen : Token.Lexes ('(' :: (a ++ ')' :: rest))
      (.mark .leftParen :: (ls ++ .mark .rightParen :: k)) :=
    lexes_mark .leftParen (by decide) (h _ _ hends hclose)
  simpa using hopen

theorem Writes.comma (ha : Writes a ls) (hb : Writes b ls') :
    Writes (a ++ ',' :: ' ' :: b) (ls ++ .mark .comma :: ls') := by
  have hends : Ends (',' :: ' ' :: b) := by
    rintro _ ⟨⟩
    exact Or.inr (Or.inr rfl)
  exact ha.append ⟨hends, fun _ _ hrest hk => lexes_mark .comma (by decide) (hb _ _ hrest hk).blank⟩

/-- A name in front of a text in parentheses. -/
theorem Writes.call {name : String} (hname : Token.isName name = true)
    (h : Writes ('(' :: a) ls) : Writes (name.toList ++ '(' :: a) (.name name :: ls) := by
  intro rest k hends hrest
  rw [List.append_assoc]
  refine (h _ _ hends hrest).symbol (s := .name name) hname ?_
  rintro _ ⟨⟩
  rfl

/-- A minus in front of a text that does not begin with one. -/
theorem Writes.minus (h : Writes a ls) (hhead : ∃ c cs, a = c :: cs ∧ c ≠ '-') :
    Writes ('-' :: a) (.mark .minus :: ls) := by
  obtain ⟨c, cs, rfl, hc⟩ := hhead
  intro rest k hends hrest
  have hspelled : (Symbol.mark .minus).IsSpelled := Symbol.isSpelled_mark.2 (by decide)
  refine (h _ _ hends hrest).symbol hspelled ?_
  rintro _ ⟨⟩
  exact decide_eq_false hc

end

theorem writes_mark (kind : TokenKind) (h : kind.spelling ≠ "") :
    Writes kind.spelling.toList [.mark kind] :=
  writes_symbol (s := .mark kind) h

theorem writes_not : Writes "NOT".toList [.mark .not_] := writes_mark .not_ (by decide)

theorem writes_operator (op : BinaryOp) : Writes op.symbol.toList op.symbols := by
  have hword : op = .notLike ∨ op = .notIn ∨
      ∃ kind : TokenKind, op.symbols = [.mark kind] ∧ op.symbol = kind.spelling ∧
        kind.spelling ≠ "" := by
    cases op with
    | notLike => exact Or.inl rfl
    | notIn => exact Or.inr (Or.inl rfl)
    | _ => exact Or.inr (Or.inr ⟨_, rfl, rfl, by decide⟩)
  rcases hword with rfl | rfl | ⟨kind, hsymbols, hsymbol, hspelled⟩
  · exact writes_not.blank (writes_mark .like (by decide))
  · exact writes_not.blank (writes_mark .in_ (by decide))
  · rw [hsymbols, hsymbol]
    exact writes_mark kind hspelled

/-! ## Constants and columns -/

/-- The second symbol may be written right behind the first one. -/
def Glued (s t : Symbol) : Prop :=
  ∃ c cs, t.source = c :: cs ∧ s.goesOn c = false

/-- Symbols that are glued together. -/
theorem writes_sources {ls : List Symbol} (hs : Symbol.AllSpelled ls) (hg : ls.IsChain Glued) :
    Writes (ls.flatMap Symbol.source) ls := by
  induction ls with
  | nil => exact writes_nil
  | cons s rest ih =>
    obtain ⟨hspelled, hrest⟩ := Symbol.allSpelled_cons.1 hs
    cases rest with
    | nil => simpa using writes_symbol hspelled
    | cons t rest =>
      obtain ⟨⟨c, cs, hsource, hstop⟩, hchain⟩ := List.isChain_cons_cons.1 hg
      intro text k hends htext
      have hlexes := ih hrest hchain text k hends htext
      rw [List.flatMap_cons, List.append_assoc]
      refine hlexes.symbol hspelled ?_
      rw [List.flatMap_cons, hsource]
      rintro _ ⟨⟩
      exact hstop

theorem glued_literal {value : Literal} (h : Vocabulary.written.literal value) :
    value.symbols.IsChain Glued := by
  have hspelled := spelled_literal h
  have hminus : ∀ s, (Symbol.number s).IsSpelled →
      [Symbol.mark .minus, .number s].IsChain Glued := by
    rintro s ⟨c, whole, fraction, hsource, hdigit, -, -⟩
    refine List.isChain_pair.2 ⟨c, _, hsource, decide_eq_false ?_⟩
    rintro rfl
    exact absurd hdigit (by decide)
  cases value with
  | integer n =>
    rw [Literal.symbols] at hspelled ⊢
    split_ifs at hspelled ⊢
    · exact hminus _ (hspelled _ (by simp))
    · exact List.isChain_singleton _
  | float x =>
    rw [Literal.symbols] at hspelled ⊢
    split_ifs at hspelled ⊢
    · exact hminus _ (hspelled _ (by simp))
    · exact List.isChain_singleton _
  | boolean b => cases b <;> exact List.isChain_singleton _
  | text | null => exact List.isChain_singleton _

theorem glued_column {name : String} (h : Token.isPath name = true) :
    (columnSymbols name).IsChain Glued := by
  obtain ⟨segment, rest, hsegments, -⟩ := exists_dotted name
  have hspelled := spelled_column h
  rw [columnSymbols, hsegments] at hspelled ⊢
  clear hsegments
  simp only at hspelled ⊢
  induction rest generalizing segment with
  | nil => exact List.isChain_singleton _
  | cons s rest ih =>
    change Symbol.AllSpelled (.name segment :: .mark .dot :: .name s :: _) at hspelled
    have hmore := (Symbol.allSpelled_cons.1 (Symbol.allSpelled_cons.1 hspelled).2).2
    obtain ⟨c, cs, hsource, -, -⟩ := Token.isName_toList (Symbol.allSpelled_cons.1 hmore).1
    have hdot : Glued (.name segment) (.mark .dot) := ⟨'.', [], rfl, rfl⟩
    have hname : Glued (.mark .dot) (.name s) := ⟨c, cs, hsource, rfl⟩
    exact List.isChain_cons_cons.2 ⟨hdot, List.isChain_cons_cons.2 ⟨hname, ih s hmore⟩⟩

/-! ## The text of a tree -/

/-- The text of the tree is read as its symbols in the full style. -/
def Legible (e : Expr) : Prop := Writes e.chars (enclose .full .or e (e.symbols .full))

/-- In the full style the place does not matter. -/
theorem Legible.at {e : Expr} (h : Legible e) (place : Level) (hplace : 0 < place.height) :
    Writes e.chars (enclose .full place e (e.symbols .full)) := by
  have hequal : enclose .full place e (e.symbols .full) =
      enclose .full .or e (e.symbols .full) := by
    cases he : e.isOperation with
    | true => rw [enclose, enclose, if_pos (Or.inr ⟨rfl, he⟩), if_pos (Or.inr ⟨rfl, he⟩)]
    | false =>
      have hlevel : e.level.height ≤ 1 := by
        cases e with
        | literal value =>
          simp only [level, Literal.level]
          split <;> decide
        | binary | unary | between => cases he
        | _ => exact Nat.zero_le 1
      rw [enclose_eq_self (hlevel.trans hplace) he, enclose_eq_self (Level.height_le_or _) he]
  rw [hequal]
  exact h

theorem legible_operation {e : Expr} {a : List Char} (he : e.isOperation = true)
    (htext : e.chars = '(' :: (a ++ [')'])) (h : Writes a (e.symbols .full)) : Legible e := by
  rw [Legible, htext, enclose, if_pos (Or.inr ⟨rfl, he⟩)]
  exact h.paren

theorem legible_operand {e : Expr} (he : e.isOperation = false)
    (h : Writes e.chars (e.symbols .full)) : Legible e := by
  rw [Legible, enclose_eq_self (Level.height_le_or _) he]
  exact h

theorem writes_items {items : List Expr} (h : ∀ e ∈ items, Legible e) :
    Writes (", ".intercalate (renderList items)).toList
      ([.mark .comma].intercalate (symbolsOfEach .full items)) := by
  rw [renderList_eq, String.toList_intercalate, List.map_map]
  induction items with
  | nil => exact writes_nil
  | cons e rest ih =>
    obtain ⟨he, hrest⟩ := List.forall_mem_cons.1 h
    cases rest with
    | nil => simpa [symbolsOfEach, chars, Legible] using he
    | cons e' rest =>
      have hmore := he.comma (ih hrest)
      simpa [symbolsOfEach, chars, List.intercalate_cons_cons] using hmore

/-- What is between the parentheses of a call. -/
theorem writes_arguments {name : String} {args : List Expr} (h : ∀ e ∈ args, Legible e) :
    ∃ a, (call name args).chars = name.toList ++ '(' :: (a ++ [')']) ∧
      Writes a (argumentSymbols .full name (symbolsOfEach .full args)) := by
  cases args with
  | nil =>
    cases hstar : Text.sameAscii name "COUNT" with
    | true =>
      refine ⟨['*'], by simp [chars, render, hstar], ?_⟩
      rw [argumentSymbols, if_pos ⟨rfl, rfl, hstar⟩]
      exact writes_mark .asterisk (by decide)
    | false =>
      refine ⟨[], by simp [chars, render, renderList, hstar], ?_⟩
      rw [argumentSymbols, hstar]
      exact writes_nil
  | cons e rest =>
    refine ⟨(", ".intercalate (renderList (e :: rest))).toList, by simp [chars, render], ?_⟩
    simpa [argumentSymbols, symbolsOfEach] using writes_items h

/-- An optional tree behind a blank and its lead. -/
theorem follows_option {lead : String} {p : List Char} {ls : List Symbol}
    (hlead : lead.toList = ' ' :: p) {e : Option Expr}
    (h : ∀ a ∈ e, Writes (p ++ a.chars) (ls ++ enclose .full .or a (a.symbols .full))) :
    Follows (renderOption lead e).toList (symbolsOfOption .full ls e) := by
  cases e with
  | none => exact follows_nil
  | some e =>
    have htext : (renderOption lead (some e)).toList = ' ' :: (p ++ e.chars) := by
      rw [renderOption, String.toList_append, hlead]
      rfl
    rw [htext]
    exact (h e rfl).behind_blank

theorem follows_branches {branches : List (Expr × Expr)} (hc : ∀ b ∈ branches, Legible b.1)
    (hr : ∀ b ∈ branches, Legible b.2) :
    Follows (renderBranches branches).toList (symbolsOfBranches .full branches) := by
  have hwhen : Writes "WHEN".toList [.mark .when_] := writes_mark .when_ (by decide)
  have hthen : Writes "THEN".toList [.mark .then_] := writes_mark .then_ (by decide)
  induction branches with
  | nil => exact follows_nil
  | cons b rest ih =>
    obtain ⟨hcondition, hc⟩ := List.forall_mem_cons.1 hc
    obtain ⟨hresult, hr⟩ := List.forall_mem_cons.1 hr
    have hbranch := (hwhen.blank (hcondition.blank (hthen.blank hresult))).behind_blank
    have htext : (renderBranches (b :: rest)).toList =
        ' ' :: ("WHEN".toList ++ ' ' :: (b.1.chars ++ ' ' :: ("THEN".toList ++
          ' ' :: b.2.chars))) ++ (renderBranches rest).toList := by
      simp [renderBranches, chars]
    rw [htext]
    simpa [symbolsOfBranches] using hbranch.append (ih hc hr)

/-- The operand of a minus begins with something else than a minus. -/
theorem head_ne_minus {e : Expr} (h : Grammatical .written e) (hn : e.isNumber = false) :
    ∃ c cs, e.chars = c :: cs ∧ c ≠ '-' := by
  rcases head_cases h.plain_of_written with ⟨hnumber, -⟩ | ⟨-, c, cs, htext, hc⟩
  · rw [hn] at hnumber
    cases hnumber
  · refine ⟨c, cs, htext, ?_⟩
    rintro rfl
    exact absurd hc (by decide)

/-- **The text of a tree** is read as its symbols. -/
theorem legible_of_grammatical {e : Expr} (h : Grammatical .written e) : Legible e := by
  -- the symbols of names and constants are glued together, all others have a blank, a parenthesis
  -- or a comma between them, so only a minus looks at what its operand begins with
  induction h with
  | column h =>
    refine legible_operand rfl ?_
    rw [chars, render, ← source_column, symbols]
    exact writes_sources (spelled_column h) (glued_column h)
  | literal h =>
    refine legible_operand rfl ?_
    rw [chars, render, ← source_literal h, symbols]
    exact writes_sources (spelled_literal h) (glued_literal h)
  | @binary op left right _ _ _ _ ihl ihr =>
    have hl : 0 < op.leftPlace.height := by cases op <;> decide
    have hr : 0 < op.rightPlace.height := by cases op <;> decide
    have htext := (ihl.at _ hl).blank ((writes_operator op).blank (ihr.at _ hr))
    exact legible_operation rfl (by simp [chars, render]) htext
  | @membership negated left items _ _ ihl ihi =>
    have hl : 0 < (membership negated).leftPlace.height := by cases negated <;> decide
    have hlist : Writes ('(' :: ((", ".intercalate (renderList items)).toList ++ [')']))
        (enclose .full (membership negated).rightPlace (.list items)
          ((list items).symbols .full)) := by
      rw [enclose_eq_self (e := .list items) (Nat.zero_le _) rfl]
      exact (writes_items ihi).paren
    have htext := (ihl.at _ hl).blank ((writes_operator (membership negated)).blank hlist)
    exact legible_operation rfl (by simp [chars, render]) htext
  | @unary op operand hop hoperand ih =>
    have his : Writes "IS".toList [.mark .is_] := writes_mark .is_ (by decide)
    have hnull : Writes "NULL".toList [.mark .null] := writes_mark .null (by decide)
    cases op with
    | not =>
      have htext := writes_not.blank (ih.at .not (by decide))
      exact legible_operation rfl (by simp [chars, render, renderUnary]) htext
    | minus =>
      have htext := (ih.at .sign (by decide)).minus (head_ne_minus hoperand (hop.2 rfl))
      exact legible_operation rfl (by simp [chars, render, renderUnary]) htext
    | plus => exact absurd rfl hop.1
    | isNull =>
      have htext := (ih.at .concat (by decide)).blank (his.blank hnull)
      exact legible_operation rfl (by simp [chars, render, renderUnary]) htext
    | isNotNull =>
      have htext := (ih.at .concat (by decide)).blank (his.blank (writes_not.blank hnull))
      exact legible_operation rfl (by simp [chars, render, renderUnary]) htext
  | @call name args hname _ ih =>
    obtain ⟨a, htext, ha⟩ := writes_arguments ih
    refine legible_operand rfl ?_
    rw [htext]
    exact ha.paren.call hname
  | @cases operand otherwise branches _ _ _ _ _ iho ihc ihr ihe =>
    have hcase : Writes "CASE".toList [.mark .case_] := writes_mark .case_ (by decide)
    have helse : Writes "ELSE".toList [.mark .else_] := writes_mark .else_ (by decide)
    have hend : Writes "END".toList [.mark .end_] := writes_mark .end_ (by decide)
    have hoperand : Follows (renderOption " " operand).toList (symbolsOfOption .full [] operand) :=
      follows_option (p := []) rfl iho
    have hotherwise : Follows (renderOption " ELSE " otherwise).toList
        (symbolsOfOption .full [.mark .else_] otherwise) :=
      follows_option (p := "ELSE ".toList) rfl fun a ha => by
        simpa using helse.blank (ihe a ha)
    have htext := hcase.append (hoperand.append ((follows_branches ihc ihr).append
      (hotherwise.append hend.behind_blank)))
    refine legible_operand rfl ?_
    simpa [chars, render, symbols] using htext
  | @between negated e low high _ _ _ ih₁ ih₂ ih₃ =>
    have hbetween : Writes (if negated then "NOT BETWEEN" else "BETWEEN").toList
        (negation negated ++ [.mark .between]) := by
      cases negated with
      | false => exact writes_mark .between (by decide)
      | true => exact writes_not.blank (writes_mark .between (by decide))
    have hand : Writes "AND".toList [.mark .and_] := writes_mark .and_ (by decide)
    have htext := (ih₁.at .concat (by decide)).blank (hbetween.blank
      ((ih₂.at .concat (by decide)).blank (hand.blank (ih₃.at .concat (by decide)))))
    rw [List.append_assoc (negation negated)] at htext
    exact legible_operation rfl (by cases negated <;> simp [chars, render]) htext

/-! ## Texts that are read again -/

/-- Names are without quotes. -/
def Unquoted (text : String) : Prop :=
  ∀ tokens, Token.tokenize text = .ok tokens →
    ∀ t ∈ tokens, text.toList[t.position]? ≠ some '\x60'

/-- No number is too great for a float. -/
def Bounded (text : String) : Prop :=
  ∀ tokens, Token.tokenize text = .ok tokens →
    ∀ t ∈ tokens, t.kind = .number → ∀ x, numberLiteral? t.text = some (.float x) →
      x.isFinite = true

/-- What is read from a text without quotes around names and without numbers that are too great. -/
theorem grammatical_of_parse {nesting : CaseNesting} {text : String} (hu : Unquoted text)
    (hb : Bounded text) {e : Expr} (h : parse nesting text = .ok e) : Grammatical .written e := by
  obtain ⟨tokens, htokens, hread⟩ := bind_eq_ok.1 h
  obtain ⟨ls, k, hsymbols, hderives⟩ := derives_of_ofTokens hread
  have htoken : ∀ s ∈ ls, ∃ t ∈ tokens, t.symbol = s := fun s hs => by
    have hmem : s ∈ Token.symbols tokens := hsymbols ▸ List.mem_append_left k hs
    exact List.mem_map.1 hmem
  refine hderives.grammatical (written_covers ?_ ?_ ?_)
  · intro s hs
    obtain ⟨t, ht, hsymbol⟩ := htoken _ hs
    obtain ⟨hkind, rfl⟩ := Token.kind_of_symbol_name hsymbol
    exact Token.isName_of_tokenize htokens ht hkind (hu tokens htokens t ht)
  · intro s hs
    obtain ⟨t, ht, hsymbol⟩ := htoken _ hs
    obtain ⟨hkind, rfl⟩ := Token.kind_of_symbol_number hsymbol
    exact Token.digit_of_tokenize htokens ht hkind
  · intro s x hs hx
    obtain ⟨t, ht, hsymbol⟩ := htoken _ hs
    obtain ⟨hkind, rfl⟩ := Token.kind_of_symbol_number hsymbol
    exact hb tokens htokens t ht hkind x hx

/-- A tree is read from its text. -/
theorem parse_of_grammatical {e : Expr} (h : Grammatical .written e) :
    parse .unlimited e.render = .ok e := by
  have hlexes := legible_of_grammatical h [] [] ends_nil Token.lexes_nil
  rw [List.append_nil, List.append_nil] at hlexes
  -- a tree may stand in parentheses at the top, where any expression is read
  obtain ⟨tokens, htokens, hsymbols⟩ := hlexes 0
  have hread := ofTokens_of_derives ((derives_symbols .full h).enclose .full .or) hsymbols
  rw [parse, Token.tokenize]
  rw [chars] at htokens
  rw [htokens]
  exact hread

/-- **What is read from a text** is read from its own text again, and no other tree that is read
    has that text. -/
theorem parse_render {text : String} (hu : Unquoted text) (hb : Bounded text) {e : Expr}
    (h : parse .unlimited text = .ok e) :
    parse .unlimited e.render = .ok e ∧
      ∀ text' e', Unquoted text' → Bounded text' → parse .unlimited text' = .ok e' →
        e.render = e'.render → e = e' := by
  have hagain := parse_of_grammatical (grammatical_of_parse hu hb h)
  refine ⟨hagain, fun text' e' hu' hb' h' hrender => ?_⟩
  have hagain' := parse_of_grammatical (grammatical_of_parse hu' hb' h')
  rw [← hrender, hagain] at hagain'
  exact Except.ok.inj hagain'

/-- Three signs: of a number, of a column, and between operands. -/
theorem parse_render_signs :
    let e := binary .subtract (binary .subtract (column "a") (literal (.integer (-1))))
      (unary .minus (column "b"))
    Unquoted "a - -1 - -b" ∧ Bounded "a - -1 - -b" ∧ parse .unlimited "a - -1 - -b" = .ok e ∧
      e.render = "((a - -1) - (-b))" ∧ parse .unlimited "((a - -1) - (-b))" = .ok e := by
  intro e
  have htokens : Token.tokenize "a - -1 - -b" = .ok [⟨.identifier, "a", 0⟩, ⟨.minus, "-", 2⟩,
      ⟨.minus, "-", 4⟩, ⟨.number, "1", 5⟩, ⟨.minus, "-", 7⟩, ⟨.minus, "-", 9⟩,
      ⟨.identifier, "b", 10⟩, ⟨.eof, "", 11⟩] := by decide +kernel
  have hu : Unquoted "a - -1 - -b" := by
    intro tokens h
    rw [htokens] at h
    cases h
    decide
  have hb : Bounded "a - -1 - -b" := by
    intro tokens h
    rw [htokens] at h
    cases h
    have hone : numberLiteral? "1" = some (.integer 1) := by decide +kernel
    simp [hone]
  have hcolumn : ∀ name ∈ ["a", "b"], Grammatical .written (column name) := by
    have hpath : ∀ name ∈ ["a", "b"], Token.isPath name = true := by decide
    exact fun name h => .column (hpath name h)
  have hone : Grammatical .written (literal (.integer (-1))) :=
    .literal (show Word.least < (-1 : Int64).toInt by decide +kernel)
  have he : Grammatical .written e :=
    .binary nofun nofun (.binary nofun nofun (hcolumn _ (by decide)) hone)
      (.unary ⟨nofun, fun _ => rfl⟩ (hcolumn _ (by decide)))
  have hparse : parse .unlimited "a - -1 - -b" = .ok e := by
    rw [parse, htokens]
    exact ofTokens_of_derives ((derives_symbols .sparse he).loosen (Level.height_le_or _))
      (by decide +kernel)
  have hrender : e.render = "((a - -1) - (-b))" := by decide +kernel
  exact ⟨hu, hb, hparse, hrender, hrender ▸ (parse_render hu hb hparse).1⟩

end Expr

end StreamSql
