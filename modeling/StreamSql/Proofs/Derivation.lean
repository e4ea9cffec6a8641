/-
  The grammar of expressions.

  A reader sees the tokens only by their symbols.  `Derives level ls e` is the grammar: the symbols
  `ls` are an expression of the level with the tree `e`, by one production for each form that is
  written.

  * `readAt_derives`: what a reader reads is derived.
-/
import Mathlib.Tactic.Common
import StreamSql.Expr.Parser

namespace StreamSql

/-! ## Symbols -/

/-- What the grammar sees of a token: the text of a name or a constant, or only the kind. -/
inductive Symbol where
  | name (s : String)
  | text (s : String)
  | number (s : String)
  | mark (kind : TokenKind)
  deriving DecidableEq

namespace TokenKind

/-- The text of a token of this kind counts. -/
def hasText : TokenKind → Bool
  | identifier | text | number => true
  | _ => false

end TokenKind

namespace Token

/-- What the grammar sees of the token. -/
def symbol (t : Token) : Symbol :=
  match t.kind with
  | .identifier => .name t.text
  | .text => .text t.text
  | .number => .number t.text
  | kind => .mark kind

/-- What the grammar sees of the tokens. -/
def symbols (ts : List Token) : List Symbol :=
  ts.map symbol

theorem symbol_of_kind {t : Token} (h : t.kind.hasText = false) : t.symbol = .mark t.kind := by
  unfold symbol
  split <;> simp_all [TokenKind.hasText]

theorem kind_of_symbol {t : Token} {kind : TokenKind} (h : t.symbol = .mark kind) :
    t.kind = kind := by
  unfold symbol at h
  split at h
  · cases h
  · cases h
  · cases h
  · exact Symbol.mark.inj h

theorem kind_of_symbol_name {t : Token} {name : String} (h : t.symbol = .name name) :
    t.kind = .identifier ∧ t.text = name := by
  unfold symbol at h
  split at h
  · next hk => exact ⟨hk, Symbol.name.inj h⟩
  all_goals cases h

theorem kind_of_symbol_text {t : Token} {s : String} (h : t.symbol = .text s) :
    t.kind = .text ∧ t.text = s := by
  unfold symbol at h
  split at h
  · cases h
  · next hk => exact ⟨hk, Symbol.text.inj h⟩
  all_goals cases h

theorem kind_of_symbol_number {t : Token} {s : String} (h : t.symbol = .number s) :
    t.kind = .number ∧ t.text = s := by
  unfold symbol at h
  split at h
  · cases h
  · cases h
  · next hk => exact ⟨hk, Symbol.number.inj h⟩
  · cases h

theorem symbols_eq_cons {ts : List Token} {s : Symbol} {k : List Symbol}
    (h : symbols ts = s :: k) : ∃ t rest, ts = t :: rest ∧ t.symbol = s ∧ symbols rest = k :=
  List.map_eq_cons_iff.1 h

end Token

namespace Expr

open Token

/-! ## Productions -/

/-- Symbols and the tree that they are written for. -/
abbrev Phrase := List Symbol × Expr

/-- Items with commas between them. -/
def separated (items : List Phrase) : List Symbol :=
  [.mark .comma].intercalate (items.map Prod.fst)

/-- NOT in front of a comparison. -/
def negation (negated : Bool) : List Symbol :=
  if negated then [.mark .not_] else []

/-- The constant that is written as a word of the language. -/
def keyword? : TokenKind → Option Literal
  | .null => some .null
  | .true_ => some (.boolean true)
  | .false_ => some (.boolean false)
  | _ => none

/-- A name with its further segments. -/
def dotted (name : String) (segments : List String) : String :=
  segments.foldl (fun name segment => name ++ "." ++ segment) name

/-- The branches of a CASE. -/
def branchSymbols (branches : List (Phrase × Phrase)) : List Symbol :=
  branches.flatMap fun b => .mark .when_ :: (b.1.1 ++ .mark .then_ :: b.2.1)

/-- The end of a CASE. -/
def otherwiseSymbols : Option Phrase → List Symbol
  | none => [.mark .end_]
  | some p => .mark .else_ :: (p.1 ++ [.mark .end_])

/-- The symbols are an expression of the level with this tree. -/
inductive Derives : Level → List Symbol → Expr → Prop
  | next {level : Level} {ls : List Symbol} {e : Expr} : Derives level.next ls e →
      Derives level ls e
  /-- an operator that groups to the left -/
  | chain {level : Level} {kind : TokenKind} {op : BinaryOp} {ls ls' : List Symbol}
      {left right : Expr} : level.operator? kind = some op → Derives level ls left →
      Derives level.next ls' right →
      Derives level (ls ++ .mark kind :: ls') (.binary op left right)
  | not {ls : List Symbol} {e : Expr} : Derives .not ls e →
      Derives .not (.mark .not_ :: ls) (.unary .not e)
  | comparison {kind : TokenKind} {op : BinaryOp} {ls ls' : List Symbol} {left right : Expr} :
      comparisonOf? kind = some op → Derives .concat ls left → Derives .concat ls' right →
      Derives .comparison (ls ++ .mark kind :: ls') (.binary op left right)
  | notLike {ls ls' : List Symbol} {left right : Expr} : Derives .concat ls left →
      Derives .concat ls' right →
      Derives .comparison (ls ++ .mark .not_ :: .mark .like :: ls') (.binary .notLike left right)
  | nullTest (negated : Bool) {ls : List Symbol} {e : Expr} : Derives .concat ls e →
      Derives .comparison (ls ++ .mark .is_ :: (negation negated ++ [.mark .null]))
        (.unary (if negated then .isNotNull else .isNull) e)
  | membership (negated : Bool) {ls : List Symbol} {e : Expr} {items : List Phrase} :
      Derives .concat ls e → (∀ i ∈ items, Derives .or i.1 i.2) →
      Derives .comparison (ls ++ (negation negated ++ .mark .in_ :: .mark .leftParen ::
        (separated items ++ [.mark .rightParen])))
        (.binary (membership negated) e (.list (items.map Prod.snd)))
  | between (negated : Bool) {ls ls' ls'' : List Symbol} {e low high : Expr} :
      Derives .concat ls e → Derives .concat ls' low → Derives .concat ls'' high →
      Derives .comparison (ls ++ (negation negated ++ .mark .between :: (ls' ++ .mark .and_ :: ls'')))
        (.between negated e low high)
  | minus {ls : List Symbol} {e : Expr} : Derives .sign ls e →
      Derives .sign (.mark .minus :: ls) e.negated
  | plus {ls : List Symbol} {e : Expr} : Derives .sign ls e →
      Derives .sign (.mark .plus :: ls) e
  | text (s : String) : Derives .primary [.text s] (.literal (.text s))
  | keyword {kind : TokenKind} {value : Literal} : keyword? kind = some value →
      Derives .primary [.mark kind] (.literal value)
  | number {s : String} {value : Literal} : numberLiteral? s = some value →
      Derives .primary [.number s] (.literal value)
  | column (name : String) (segments : List String) :
      Derives .primary (.name name :: segments.flatMap fun s => [.mark .dot, .name s])
        (.column (dotted name segments))
  | call (name : String) {args : List Phrase} : (∀ a ∈ args, Derives .or a.1 a.2) →
      Derives .primary (.name name :: .mark .leftParen :: (separated args ++ [.mark .rightParen]))
        (.call name (args.map Prod.snd))
  | star (name : String) :
      Derives .primary [.name name, .mark .leftParen, .mark .asterisk, .mark .rightParen]
        (.call name [])
  | paren {ls : List Symbol} {e : Expr} : Derives .or ls e →
      Derives .primary (.mark .leftParen :: (ls ++ [.mark .rightParen])) e
  | cases {operand otherwise : Option Phrase} {branches : List (Phrase × Phrase)} :
      branches ≠ [] → (∀ p ∈ operand, Derives .or p.1 p.2) →
      (∀ b ∈ branches, Derives .or b.1.1 b.1.2) → (∀ b ∈ branches, Derives .or b.2.1 b.2.2) →
      (∀ p ∈ otherwise, Derives .or p.1 p.2) →
      Derives .primary (.mark .case_ :: ((operand.map Prod.fst).getD [] ++
        (branchSymbols branches ++ otherwiseSymbols otherwise)))
        (.cases (operand.map Prod.snd) (branches.map fun b => (b.1.2, b.2.2))
          (otherwise.map Prod.snd))

/-! ## What is read is derived -/

theorem skip?_symbols {kind : TokenKind} (hk : kind.hasText = false) {ts : List Token}
    {rest : { rest : List Token // rest.length < ts.length }} (h : skip? kind ts = some rest) :
    symbols ts = .mark kind :: symbols rest.1 := by
  unfold skip? at h
  split at h
  · split at h
    · next ht =>
      cases h
      rw [symbols, List.map_cons, symbol_of_kind (by rw [ht, hk]), ht]
      rfl
    · cases h
  · cases h

theorem expect_symbols {kind : TokenKind} (hk : kind.hasText = false) {ts : List Token} {t : Token}
    {rest : { rest : List Token // rest.length < ts.length }}
    (h : expect kind ts = .ok (t, rest)) : symbols ts = .mark kind :: symbols rest.1 := by
  unfold expect at h
  split at h
  · split at h
    · next ht =>
      cases h
      rw [symbols, List.map_cons, symbol_of_kind (by rw [ht, hk]), ht]
      rfl
    · cases h
  · cases h

theorem expectIdentifier_symbols {ts : List Token} {name : String}
    {rest : { rest : List Token // rest.length < ts.length }}
    (h : expectIdentifier ts = .ok (name, rest)) : symbols ts = .name name :: symbols rest.1 := by
  unfold expectIdentifier at h
  split at h
  · split at h
    · next ht =>
      cases h
      rw [symbols, List.map_cons, symbol, ht]
      rfl
    · cases h
  · cases h

theorem readSegments_symbols {name whole : String} {ts : List Token}
    {rest : { rest : List Token // rest.length ≤ ts.length }}
    (h : readSegments name ts = .ok (whole, rest)) :
    ∃ segments : List String, whole = dotted name segments ∧
      symbols ts = (segments.flatMap fun s => [.mark .dot, .name s]) ++ symbols rest.1 := by
  unfold readSegments at h
  split at h
  · cases h
    exact ⟨[], rfl, rfl⟩
  · next hskip =>
    obtain ⟨⟨segment, rest', h'⟩, hsegment, h⟩ := bind_eq_ok.1 h
    obtain ⟨⟨whole', rest'', h''⟩, hmore, h⟩ := bind_eq_ok.1 h
    cases h
    obtain ⟨segments, rfl, hsegments⟩ := readSegments_symbols hmore
    refine ⟨segment :: segments, rfl, ?_⟩
    rw [skip?_symbols rfl hskip, expectIdentifier_symbols hsegment, hsegments]
    rfl
termination_by ts.length

theorem separated_cons (p q : Phrase) (rest : List Phrase) :
    separated (p :: q :: rest) = p.1 ++ .mark .comma :: separated (q :: rest) := by
  simp [separated, List.intercalate_cons_cons]

@[simp]
theorem separated_singleton (p : Phrase) : separated [p] = p.1 := by
  simp [separated]

theorem readNullTest_symbols {operand e : Expr} {ts : List Token}
    {rest : { rest : List Token // rest.length < ts.length }}
    (h : readNullTest operand ts = .ok (e, rest)) :
    ∃ negated, symbols ts = negation negated ++ .mark .null :: symbols rest.1 ∧
      e = .unary (if negated then .isNotNull else .isNull) operand := by
  unfold readNullTest at h
  split at h
  · next hnot =>
    split at h
    · next hnull =>
      cases h
      exact ⟨true, by rw [skip?_symbols rfl hnot, skip?_symbols rfl hnull]; rfl, rfl⟩
    · cases h
  · split at h
    · next hnull =>
      cases h
      exact ⟨false, by rw [skip?_symbols rfl hnull]; rfl, rfl⟩
    · cases h

theorem constant?_derives {t : Token} {value : Literal} (h : constant? t = some value) :
    Derives .primary [t.symbol] (.literal value) := by
  have hmark : ∀ {kind : TokenKind}, t.kind = kind → kind.hasText = false →
      t.symbol = .mark kind := fun hk hkind => by rw [symbol_of_kind (by rw [hk, hkind]), hk]
  unfold constant? at h
  split at h
  · next hk =>
    cases h
    rw [symbol, hk]
    exact .text _
  · next hk =>
    cases h
    exact hmark hk rfl ▸ .keyword rfl
  · next hk =>
    cases h
    exact hmark hk rfl ▸ .keyword rfl
  · next hk =>
    cases h
    exact hmark hk rfl ▸ .keyword rfl
  · cases h

mutual

/-- **What a reader reads** is derived, and the symbols behind it are left. -/
theorem readAt_derives {nesting : CaseNesting} : ∀ {level : Level} {ts : List Token} {e : Expr}
    {rest : { rest : List Token // rest.length < ts.length }},
    readAt nesting level ts = .ok (e, rest) →
      ∃ ls, symbols ts = ls ++ symbols rest.1 ∧ Derives level ls e
  | .not, ts, e, rest, h => by
    unfold readAt at h
    split at h
    · next hskip =>
      obtain ⟨⟨e', rest', h'⟩, hread, h⟩ := bind_eq_ok.1 h
      cases h
      obtain ⟨ls, hls, hd⟩ := readAt_derives hread
      exact ⟨.mark .not_ :: ls, by rw [skip?_symbols rfl hskip, hls]; rfl, .not hd⟩
    · obtain ⟨ls, hls, hd⟩ := readAt_derives h
      exact ⟨ls, hls, .next hd⟩
  | .sign, ts, e, rest, h => by
    unfold readAt at h
    split at h
    · next hskip =>
      obtain ⟨⟨e', rest', h'⟩, hread, h⟩ := bind_eq_ok.1 h
      cases h
      obtain ⟨ls, hls, hd⟩ := readAt_derives hread
      exact ⟨.mark .minus :: ls, by rw [skip?_symbols rfl hskip, hls]; rfl, .minus hd⟩
    · split at h
      · next hskip =>
        obtain ⟨⟨e', rest', h'⟩, hread, h⟩ := bind_eq_ok.1 h
        cases h
        obtain ⟨ls, hls, hd⟩ := readAt_derives hread
        exact ⟨.mark .plus :: ls, by rw [skip?_symbols rfl hskip, hls]; rfl, .plus hd⟩
      · obtain ⟨ls, hls, hd⟩ := readAt_derives h
        exact ⟨ls, hls, .next hd⟩
  | .primary, ts, e, rest, h => by
    unfold readAt at h
    exact readPrimary_derives h
  | .comparison, ts, e, rest, h => by
    unfold readAt at h
    obtain ⟨⟨left, rest', h'⟩, hread, h⟩ := bind_eq_ok.1 h
    obtain ⟨⟨e', rest'', h''⟩, hread', h⟩ := bind_eq_ok.1 h
    cases h
    obtain ⟨ls, hls, hd⟩ := readAt_derives hread
    obtain ⟨ls', hls', hd'⟩ := readComparison_derives hd hread'
    exact ⟨ls ++ ls', by rw [hls, hls', List.append_assoc], hd'⟩
  | .or, ts, e, rest, h | .and, ts, e, rest, h | .concat, ts, e, rest, h
  | .additive, ts, e, rest, h | .multiplicative, ts, e, rest, h => by
    unfold readAt at h
    obtain ⟨⟨left, rest', h'⟩, hread, h⟩ := bind_eq_ok.1 h
    obtain ⟨⟨e', rest'', h''⟩, hread', h⟩ := bind_eq_ok.1 h
    cases h
    obtain ⟨ls, hls, hd⟩ := readAt_derives hread
    obtain ⟨ls', hls', hd'⟩ := readChain_derives (by exact .next hd) hread'
    exact ⟨ls ++ ls', by rw [hls, hls', List.append_assoc], hd'⟩
termination_by level ts => (ts.length, level.height + 1)
decreasing_by
  all_goals simp [Prod.lex_def, Level.height]
  all_goals omega

theorem readChain_derives {nesting : CaseNesting} {level : Level} :
    ∀ {left : Expr} {ls : List Symbol} {ts : List Token} {e : Expr}
      {rest : { rest : List Token // rest.length ≤ ts.length }}, Derives level ls left →
      readChain nesting level left ts = .ok (e, rest) →
        ∃ ls', symbols ts = ls' ++ symbols rest.1 ∧ Derives level (ls ++ ls') e
  | left, ls, [], e, rest, hleft, h => by
    unfold readChain at h
    cases h
    exact ⟨[], rfl, by rwa [List.append_nil]⟩
  | left, ls, t :: ts, e, rest, hleft, h => by
    unfold readChain at h
    simp only at h
    split at h
    · cases h
      exact ⟨[], rfl, by rwa [List.append_nil]⟩
    · next op hop =>
      obtain ⟨⟨right, rest', h'⟩, hread, h⟩ := bind_eq_ok.1 h
      obtain ⟨⟨e', rest'', h''⟩, hread', h⟩ := bind_eq_ok.1 h
      cases h
      obtain ⟨ls₁, hls₁, hright⟩ := readAt_derives hread
      obtain ⟨ls₂, hls₂, hd⟩ := readChain_derives (.chain hop hleft hright) hread'
      refine ⟨.mark t.kind :: (ls₁ ++ ls₂), ?_, by simpa using hd⟩
      have ht : t.kind.hasText = false := by
        generalize t.kind = kind at hop
        cases kind <;> first | rfl | cases level <;> cases hop
      rw [symbols, List.map_cons, symbol_of_kind ht, ← symbols, hls₁, hls₂]
      simp
termination_by _ _ ts => (ts.length, 0)
decreasing_by
  all_goals simp only [List.length_cons, Prod.lex_def]; omega

theorem readComparison_derives {nesting : CaseNesting} :
    ∀ {left : Expr} {ls : List Symbol} {ts : List Token} {e : Expr}
      {rest : { rest : List Token // rest.length ≤ ts.length }}, Derives .concat ls left →
      readComparison nesting left ts = .ok (e, rest) →
        ∃ ls', symbols ts = ls' ++ symbols rest.1 ∧ Derives .comparison (ls ++ ls') e
  | left, ls, [], e, rest, hleft, h => by
    unfold readComparison at h
    cases h
    exact ⟨[], rfl, by simpa using .next hleft⟩
  | left, ls, t :: ts, e, ⟨rest, hrest⟩, hleft, h => by
    show ∃ ls', symbols (t :: ts) = ls' ++ symbols rest ∧ Derives .comparison (ls ++ ls') e
    have hnone : Derives .comparison (ls ++ []) left := by simpa using .next hleft
    have ht : ∀ {kind : TokenKind}, t.kind = kind → kind.hasText = false →
        symbols (t :: ts) = .mark kind :: symbols ts := fun hk hkind => by
      rw [symbols, List.map_cons, symbol_of_kind (by rw [hk, hkind]), hk, symbols]
    unfold readComparison at h
    simp only at h
    split at h
    · next op hop =>
      obtain ⟨⟨right, rest', h'⟩, hread, h⟩ := bind_eq_ok.1 h
      cases h
      obtain ⟨ls', hls', hright⟩ := readAt_derives hread
      have hkind : t.kind.hasText = false := by
        generalize t.kind = kind at hop
        cases kind <;> first | rfl | cases hop
      exact ⟨.mark t.kind :: ls', by rw [ht rfl hkind, hls']; rfl, .comparison hop hleft hright⟩
    · split at h
      · next hk =>
        obtain ⟨⟨e', rest', h'⟩, hread, h⟩ := bind_eq_ok.1 h
        cases h
        obtain ⟨negated, hls', rfl⟩ := readNullTest_symbols hread
        exact ⟨.mark .is_ :: (negation negated ++ [.mark .null]), by rw [ht hk rfl, hls']; simp,
          .nullTest negated hleft⟩
      · split at h
        · next hk =>
          obtain ⟨⟨e', rest', h'⟩, hread, h⟩ := bind_eq_ok.1 h
          cases h
          obtain ⟨ls', hls', hd⟩ := readMembership_derives hleft hread
          exact ⟨.mark .in_ :: ls', by rw [ht hk rfl, hls']; rfl, hd⟩
        · split at h
          · next hk =>
            obtain ⟨⟨e', rest', h'⟩, hread, h⟩ := bind_eq_ok.1 h
            cases h
            obtain ⟨ls', hls', hd⟩ := readBetween_derives hleft hread
            exact ⟨.mark .between :: ls', by rw [ht hk rfl, hls']; rfl, hd⟩
          · split at h
            · next hk =>
              rcases hts : ts with _ | ⟨u, us⟩
              · subst hts
                cases h
                exact ⟨[], rfl, hnone⟩
              · have hlt : us.length < ts.length := by rw [hts]; exact Nat.lt_succ_self _
                have hu : ∀ {kind : TokenKind}, u.kind = kind → kind.hasText = false →
                    symbols (t :: u :: us) = .mark .not_ :: .mark kind :: symbols us :=
                  fun hk' hkind => by
                    rw [← hts, ht hk rfl, hts, symbols, List.map_cons,
                      symbol_of_kind (by rw [hk', hkind]), hk', symbols]
                subst hts
                simp only at h
                split at h
                · next hk' =>
                  obtain ⟨⟨e', rest', h'⟩, hread, h⟩ := bind_eq_ok.1 h
                  cases h
                  obtain ⟨ls', hls', hd⟩ := readMembership_derives hleft hread
                  exact ⟨.mark .not_ :: .mark .in_ :: ls', by rw [hu hk' rfl, hls']; rfl, hd⟩
                · split at h
                  · next hk' =>
                    obtain ⟨⟨e', rest', h'⟩, hread, h⟩ := bind_eq_ok.1 h
                    cases h
                    obtain ⟨ls', hls', hd⟩ := readBetween_derives hleft hread
                    exact ⟨.mark .not_ :: .mark .between :: ls', by rw [hu hk' rfl, hls']; rfl, hd⟩
                  · split at h
                    · next hk' =>
                      obtain ⟨⟨right, rest', h'⟩, hread, h⟩ := bind_eq_ok.1 h
                      cases h
                      obtain ⟨ls', hls', hright⟩ := readAt_derives hread
                      exact ⟨.mark .not_ :: .mark .like :: ls', by rw [hu hk' rfl, hls']; rfl,
                        .notLike hleft hright⟩
                    · cases h
                      exact ⟨[], rfl, hnone⟩
            · cases h
              exact ⟨[], rfl, hnone⟩
termination_by _ _ ts => (ts.length, 0)
decreasing_by
  all_goals simp only [List.length_cons, Prod.lex_def]; omega

theorem readMembership_derives {nesting : CaseNesting} {left : Expr} {negated : Bool}
    {ls : List Symbol} {ts : List Token} {e : Expr}
    {rest : { rest : List Token // rest.length < ts.length }} (hleft : Derives .concat ls left)
    (h : readMembership nesting left negated ts = .ok (e, rest)) :
    ∃ ls', symbols ts = ls' ++ symbols rest.1 ∧
      Derives .comparison (ls ++ (negation negated ++ .mark .in_ :: ls')) e := by
  unfold readMembership at h
  split at h
  · cases h
  · next hopen =>
    rw [skip?_symbols rfl hopen]
    split at h
    · next hclose =>
      cases h
      refine ⟨[.mark .leftParen, .mark .rightParen], by rw [skip?_symbols rfl hclose]; rfl, ?_⟩
      exact @Derives.membership negated _ _ [] hleft nofun
    · obtain ⟨⟨items, rest', h'⟩, hread, h⟩ := bind_eq_ok.1 h
      cases h
      obtain ⟨p, ps, hsymbols, rfl, hd⟩ := readItems_derives hread
      exact ⟨.mark .leftParen :: (separated (p :: ps) ++ [.mark .rightParen]),
        by rw [hsymbols]; simp, .membership negated hleft hd⟩
termination_by (ts.length, 0)

theorem readItems_derives {nesting : CaseNesting} {ts : List Token} {items : List Expr}
    {rest : { rest : List Token // rest.length < ts.length }}
    (h : readItems nesting ts = .ok (items, rest)) :
    ∃ p ps, symbols ts = separated (p :: ps) ++ .mark .rightParen :: symbols rest.1 ∧
      items = (p :: ps).map Prod.snd ∧ ∀ i ∈ p :: ps, Derives .or i.1 i.2 := by
  unfold readItems at h
  obtain ⟨⟨e, rest', h'⟩, hread, h⟩ := bind_eq_ok.1 h
  obtain ⟨ls, hls, hd⟩ := readAt_derives hread
  simp only at h hls
  split at h
  · next hcomma =>
    obtain ⟨⟨items', rest'', h''⟩, hread', h⟩ := bind_eq_ok.1 h
    cases h
    obtain ⟨q, qs, hsymbols, rfl, hitems⟩ := readItems_derives hread'
    refine ⟨(ls, e), q :: qs, ?_, rfl, List.forall_mem_cons.2 ⟨hd, hitems⟩⟩
    rw [hls, skip?_symbols rfl hcomma, hsymbols, separated_cons]
    simp
  · split at h
    · next hclose =>
      cases h
      exact ⟨(ls, e), [], by rw [hls, skip?_symbols rfl hclose, separated_singleton], rfl,
        List.forall_mem_singleton.2 hd⟩
    · cases h
termination_by (ts.length, 10)
decreasing_by
  all_goals simp [Prod.lex_def, Level.height]
  all_goals omega

theorem readBetween_derives {nesting : CaseNesting} {operand : Expr} {negated : Bool}
    {ls : List Symbol} {ts : List Token} {e : Expr}
    {rest : { rest : List Token // rest.length < ts.length }} (hop : Derives .concat ls operand)
    (h : readBetween nesting operand negated ts = .ok (e, rest)) :
    ∃ ls', symbols ts = ls' ++ symbols rest.1 ∧
      Derives .comparison (ls ++ (negation negated ++ .mark .between :: ls')) e := by
  unfold readBetween at h
  obtain ⟨⟨low, rest', h'⟩, hlow, h⟩ := bind_eq_ok.1 h
  simp only at h
  split at h
  · cases h
  · next hand =>
    obtain ⟨⟨high, rest'', h''⟩, hhigh, h⟩ := bind_eq_ok.1 h
    cases h
    obtain ⟨ls₁, hls₁, hd₁⟩ := readAt_derives hlow
    obtain ⟨ls₂, hls₂, hd₂⟩ := readAt_derives hhigh
    refine ⟨ls₁ ++ .mark .and_ :: ls₂, ?_, .between negated hop hd₁ hd₂⟩
    rw [hls₁, skip?_symbols rfl hand, hls₂]
    simp
termination_by (ts.length, 10)
decreasing_by
  all_goals simp [Prod.lex_def, Level.height]
  all_goals omega

theorem readPrimary_derives {nesting : CaseNesting} : ∀ {ts : List Token} {e : Expr}
    {rest : { rest : List Token // rest.length < ts.length }},
    readPrimary nesting ts = .ok (e, rest) →
      ∃ ls, symbols ts = ls ++ symbols rest.1 ∧ Derives .primary ls e
  | [], e, rest, h => by
    unfold readPrimary at h
    cases h
  | t :: ts, e, rest, h => by
    unfold readPrimary at h
    simp only at h
    split at h
    · next hvalue =>
      cases h
      exact ⟨[t.symbol], rfl, constant?_derives hvalue⟩
    · split at h
      · next hk =>
        split at h
        · next hvalue =>
          cases h
          exact ⟨[.number t.text], by rw [symbols, List.map_cons, symbol, hk]; rfl, .number hvalue⟩
        · cases h
      · split at h
        · next hk =>
          split at h
          · cases h
          · obtain ⟨⟨e', rest', h'⟩, hread, h⟩ := bind_eq_ok.1 h
            cases h
            obtain ⟨ls, hls, hd⟩ := readCase_derives hread
            refine ⟨.mark .case_ :: ls, ?_, hd⟩
            rw [symbols, List.map_cons, symbol, hk, ← symbols, hls]
            rfl
        · split at h
          · next hk =>
            obtain ⟨⟨e', rest', h'⟩, hread, h⟩ := bind_eq_ok.1 h
            obtain ⟨⟨u, rest'', h''⟩, hclose, h⟩ := bind_eq_ok.1 h
            cases h
            obtain ⟨ls, hls, hd⟩ := readAt_derives hread
            refine ⟨.mark .leftParen :: (ls ++ [.mark .rightParen]), ?_, .paren hd⟩
            rw [symbols, List.map_cons, symbol, hk, ← symbols, hls, expect_symbols rfl hclose]
            simp
          · split at h
            · next hk =>
              have ht : symbols (t :: ts) = .name t.text :: symbols ts := by
                rw [symbols, List.map_cons, symbol, hk, symbols]
              split at h
              · next hopen =>
                obtain ⟨⟨args, rest', h'⟩, hread, h⟩ := bind_eq_ok.1 h
                cases h
                rw [ht, skip?_symbols rfl hopen]
                rcases readArguments_derives hread with ⟨hsymbols, rfl⟩ | ⟨ps, hsymbols, rfl, hd⟩
                · exact ⟨_, by rw [hsymbols]; rfl, .star t.text⟩
                · refine ⟨_, ?_, .call t.text hd⟩
                  rw [hsymbols]
                  simp
              · obtain ⟨⟨name, rest', h'⟩, hread, h⟩ := bind_eq_ok.1 h
                cases h
                obtain ⟨segments, rfl, hsegments⟩ := readSegments_symbols hread
                exact ⟨_, by rw [ht, hsegments]; rfl, .column t.text segments⟩
            · split at h <;> cases h
termination_by ts => (ts.length, 0)
decreasing_by
  all_goals simp only [List.length_cons, Prod.lex_def]; omega

theorem readArguments_derives {nesting : CaseNesting} {ts : List Token} {args : List Expr}
    {rest : { rest : List Token // rest.length < ts.length }}
    (h : readArguments nesting ts = .ok (args, rest)) :
    symbols ts = .mark .asterisk :: .mark .rightParen :: symbols rest.1 ∧ args = [] ∨
      ∃ ps, symbols ts = separated ps ++ .mark .rightParen :: symbols rest.1 ∧
        args = ps.map Prod.snd ∧ ∀ a ∈ ps, Derives .or a.1 a.2 := by
  unfold readArguments at h
  split at h
  · next hstar =>
    obtain ⟨⟨u, rest', h'⟩, hclose, h⟩ := bind_eq_ok.1 h
    cases h
    exact Or.inl ⟨by rw [skip?_symbols rfl hstar, expect_symbols rfl hclose], rfl⟩
  · split at h
    · next hclose =>
      cases h
      exact Or.inr ⟨[], skip?_symbols rfl hclose, rfl, nofun⟩
    · obtain ⟨p, ps, hps⟩ := readArgumentList_derives h
      exact Or.inr ⟨p :: ps, hps⟩
termination_by (ts.length, 11)

theorem readArgumentList_derives {nesting : CaseNesting} {ts : List Token} {args : List Expr}
    {rest : { rest : List Token // rest.length < ts.length }}
    (h : readArgumentList nesting ts = .ok (args, rest)) :
    ∃ p ps, symbols ts = separated (p :: ps) ++ .mark .rightParen :: symbols rest.1 ∧
      args = (p :: ps).map Prod.snd ∧ ∀ a ∈ p :: ps, Derives .or a.1 a.2 := by
  unfold readArgumentList at h
  obtain ⟨⟨e, rest', h'⟩, hread, h⟩ := bind_eq_ok.1 h
  obtain ⟨ls, hls, hd⟩ := readAt_derives hread
  simp only at h hls
  split at h
  · next hcomma =>
    obtain ⟨⟨args', rest'', h''⟩, hread', h⟩ := bind_eq_ok.1 h
    cases h
    obtain ⟨q, qs, hsymbols, rfl, hargs⟩ := readArgumentList_derives hread'
    refine ⟨(ls, e), q :: qs, ?_, rfl, List.forall_mem_cons.2 ⟨hd, hargs⟩⟩
    rw [hls, skip?_symbols rfl hcomma, hsymbols, separated_cons]
    simp
  · obtain ⟨⟨u, rest'', h''⟩, hclose, h⟩ := bind_eq_ok.1 h
    cases h
    exact ⟨(ls, e), [], by rw [hls, expect_symbols rfl hclose, separated_singleton], rfl,
      List.forall_mem_singleton.2 hd⟩
termination_by (ts.length, 10)
decreasing_by
  all_goals simp [Prod.lex_def, Level.height]
  all_goals omega

theorem readCase_derives {nesting : CaseNesting} {ts : List Token} {e : Expr}
    {rest : { rest : List Token // rest.length < ts.length }}
    (h : readCase nesting ts = .ok (e, rest)) :
    ∃ ls, symbols ts = ls ++ symbols rest.1 ∧ Derives .primary (.mark .case_ :: ls) e := by
  unfold readCase at h
  split at h
  · obtain ⟨⟨e', rest', h'⟩, hread, h⟩ := bind_eq_ok.1 h
    cases h
    exact readCaseBody_derives none nofun hread
  · obtain ⟨⟨operand, rest', h'⟩, hread, h⟩ := bind_eq_ok.1 h
    obtain ⟨⟨e', rest'', h''⟩, hread', h⟩ := bind_eq_ok.1 h
    cases h
    obtain ⟨ls, hls, hd⟩ := readAt_derives hread
    obtain ⟨ls', hls', hd'⟩ := readCaseBody_derives (some (ls, operand))
      (by rintro _ ⟨⟩; exact hd) hread'
    exact ⟨ls ++ ls', by rw [hls, hls', List.append_assoc], hd'⟩
termination_by (ts.length, 12)
decreasing_by
  all_goals simp [Prod.lex_def, Level.height]
  all_goals omega

theorem readCaseBody_derives {nesting : CaseNesting} (operand : Option Phrase) {ts : List Token}
    {e : Expr} {rest : { rest : List Token // rest.length < ts.length }}
    (hop : ∀ p ∈ operand, Derives .or p.1 p.2)
    (h : readCaseBody nesting (operand.map Prod.snd) ts = .ok (e, rest)) :
    ∃ ls, symbols ts = ls ++ symbols rest.1 ∧
      Derives .primary (.mark .case_ :: ((operand.map Prod.fst).getD [] ++ ls)) e := by
  unfold readCaseBody at h
  obtain ⟨⟨branches, rest', h'⟩, hread, h⟩ := bind_eq_ok.1 h
  obtain ⟨bs, hbs, rfl, hconditions, hresults⟩ := readBranches_derives hread
  simp only at h
  split at h
  · cases h
  · next hne =>
    have hne' : bs ≠ [] := fun he => hne (by rw [he]; rfl)
    split at h
    · next helse =>
      obtain ⟨⟨otherwise, rest'', h''⟩, hread', h⟩ := bind_eq_ok.1 h
      obtain ⟨⟨u, rest₃, h₃⟩, hend, h⟩ := bind_eq_ok.1 h
      cases h
      obtain ⟨ls, hls, hd⟩ := readAt_derives hread'
      refine ⟨branchSymbols bs ++ otherwiseSymbols (some (ls, otherwise)), ?_,
        @Derives.cases operand (some (ls, otherwise)) bs hne' hop hconditions hresults
          (by rintro _ ⟨⟩; exact hd)⟩
      rw [hbs, skip?_symbols rfl helse, hls, expect_symbols rfl hend]
      simp [otherwiseSymbols]
    · obtain ⟨⟨u, rest'', h''⟩, hend, h⟩ := bind_eq_ok.1 h
      cases h
      refine ⟨branchSymbols bs ++ otherwiseSymbols none, ?_,
        @Derives.cases operand none bs hne' hop hconditions hresults nofun⟩
      rw [hbs, expect_symbols rfl hend]
      simp [otherwiseSymbols]
termination_by (ts.length, 11)
decreasing_by
  all_goals simp [Prod.lex_def, Level.height]
  all_goals omega

theorem readBranches_derives {nesting : CaseNesting} {ts : List Token}
    {branches : List (Expr × Expr)} {rest : { rest : List Token // rest.length ≤ ts.length }}
    (h : readBranches nesting ts = .ok (branches, rest)) :
    ∃ bs : List (Phrase × Phrase), symbols ts = branchSymbols bs ++ symbols rest.1 ∧
      branches = bs.map (fun b => (b.1.2, b.2.2)) ∧
      (∀ b ∈ bs, Derives .or b.1.1 b.1.2) ∧ ∀ b ∈ bs, Derives .or b.2.1 b.2.2 := by
  unfold readBranches at h
  split at h
  · cases h
    exact ⟨[], rfl, rfl, nofun, nofun⟩
  · next hwhen =>
    obtain ⟨⟨condition, rest₁, h₁⟩, hcondition, h⟩ := bind_eq_ok.1 h
    obtain ⟨⟨u, rest₂, h₂⟩, hthen, h⟩ := bind_eq_ok.1 h
    obtain ⟨⟨result, rest₃, h₃⟩, hresult, h⟩ := bind_eq_ok.1 h
    obtain ⟨⟨more, rest₄, h₄⟩, hmore, h⟩ := bind_eq_ok.1 h
    cases h
    obtain ⟨ls, hls, hd⟩ := readAt_derives hcondition
    obtain ⟨ls', hls', hd'⟩ := readAt_derives hresult
    obtain ⟨bs, hbs, rfl, hconditions, hresults⟩ := readBranches_derives hmore
    refine ⟨((ls, condition), (ls', result)) :: bs, ?_, rfl,
      List.forall_mem_cons.2 ⟨hd, hconditions⟩, List.forall_mem_cons.2 ⟨hd', hresults⟩⟩
    rw [skip?_symbols rfl hwhen, hls, expect_symbols rfl hthen, hls', hbs]
    simp [branchSymbols]
termination_by (ts.length, 10)
decreasing_by
  all_goals simp [Prod.lex_def, Level.height]
  all_goals omega

end

end Expr

end StreamSql
