/-
  What the grammar derives is read.

  * `Derives.begins`: an expression begins with a symbol that fits its level, so no reader takes
    it for another production;
  * `Symbol.endsAll`: how tightly the symbols behind an expression go on with it;
  * `Derives.reads`: the symbols of an expression are read as its tree, up to symbols that do not
    go on with it.
-/
import Mathlib.Tactic.Common
import StreamSql.Proofs.Derivation

namespace StreamSql

/-! ## What follows an expression -/

/-- The rank of a level.  Its operators have the next greater rank, but comparisons have their own:
    they are not chained. -/
def Expr.Level.rank : Expr.Level → Nat
  | or => 9 | and => 8 | not => 7 | comparison => 6 | concat => 4 | additive => 3
  | multiplicative => 2 | sign => 1 | primary => 0

/-- An expression of a level of less rank ends in front of a token of the kind. -/
def TokenKind.ends : TokenKind → Nat
  | dot | leftParen => 0
  | asterisk | divide | percent => 3
  | plus | minus => 4
  | concat => 5
  | equal | notEqual | lessThan | lessThanOrEqual | greaterThan | greaterThanOrEqual
  | like | is_ | in_ | not_ | between => 6
  | and_ => 9
  | or_ => 10
  | _ => 11

/-- An expression of a level of less rank ends in front of the symbol. -/
def Symbol.ends : Symbol → Nat
  | mark kind => kind.ends
  | _ => 11

/-- An expression of a level of less rank ends in front of the symbols. -/
def Symbol.endsAll : List Symbol → Nat
  | [] => 11
  | s :: _ => s.ends

/-- The height of the least level whose expressions begin with the symbol. -/
def Symbol.weight : Symbol → Nat
  | mark .null | mark .true_ | mark .false_ | mark .leftParen | mark .case_ => 0
  | mark .plus | mark .minus => 1
  | mark .not_ => 6
  | mark _ => 9
  | _ => 0

namespace Expr

open Token StreamSql.Symbol

theorem Level.ends_of_operator? {level : Level} {kind : TokenKind} {op : BinaryOp}
    (h : level.operator? kind = some op) : kind.ends = level.rank + 1 := by
  unfold operator? at h
  split at h <;> first | rfl | cases h

theorem Level.rank_next {level : Level} (h : level ≠ .primary) :
    level.next.rank + 1 ≤ level.rank := by
  cases level <;> first | decide | exact absurd rfl h

theorem Level.rank_next_le (level : Level) : level.next.rank ≤ level.rank := by
  cases level <;> decide

theorem Level.height_next_le (level : Level) : level.next.height ≤ level.height := by
  cases level <;> decide

theorem Level.next_operator?_eq_none {level : Level} {kind : TokenKind}
    (h : level.rank < kind.ends) : level.next.operator? kind = none := by
  cases hop : level.next.operator? kind with
  | none => rfl
  | some op =>
    have hends := ends_of_operator? hop
    by_cases hp : level = .primary
    · subst hp
      cases hop
    · have hrank := rank_next hp
      omega

theorem ends_of_comparisonOf? {kind : TokenKind} {op : BinaryOp}
    (h : comparisonOf? kind = some op) : kind.ends = 6 := by
  unfold comparisonOf? at h
  split at h <;> first | rfl | cases h

/-- **An expression begins** with a symbol that fits its level. -/
theorem Derives.begins {level : Level} {ls : List Symbol} {e : Expr} (h : Derives level ls e) :
    ∃ s tail, ls = s :: tail ∧ s.weight ≤ level.height := by
  have hprefix : ∀ {a b : List Symbol} {m n : Nat}, m ≤ n →
      (∃ s tail, a = s :: tail ∧ s.weight ≤ m) → ∃ s tail, a ++ b = s :: tail ∧ s.weight ≤ n := by
    rintro a b m n hmn ⟨s, tail, rfl, hs⟩
    exact ⟨s, tail ++ b, rfl, Nat.le_trans hs hmn⟩
  induction h with
  | @next level _ _ _ ih =>
    obtain ⟨s, tail, rfl, hs⟩ := ih
    exact ⟨s, tail, rfl, Nat.le_trans hs level.height_next_le⟩
  | chain _ _ _ ih => exact hprefix (Nat.le_refl _) ih
  | comparison _ _ _ ih | notLike _ _ ih => exact hprefix (by decide) ih
  | nullTest _ _ ih | membership _ _ _ ih | between _ _ _ _ ih => exact hprefix (by decide) ih
  | not | minus | plus | text | number | column | call | star | paren | cases =>
    exact ⟨_, _, rfl, Nat.le_refl _⟩
  | @keyword kind _ hk =>
    refine ⟨_, _, rfl, ?_⟩
    unfold keyword? at hk
    split at hk <;> first | exact Nat.le_refl _ | cases hk

theorem Derives.head_ne {level : Level} {ls : List Symbol} {e : Expr} (h : Derives level ls e)
    {kind : TokenKind} (hk : level.height < (Symbol.mark kind).weight) (k : List Symbol) :
    (ls ++ k).head? ≠ some (.mark kind) := by
  obtain ⟨s, tail, rfl, hs⟩ := h.begins
  rintro heq
  obtain rfl := Option.some.inj heq
  omega

/-! ## Readings -/

section Readings

variable {α β : Type} {P Q : List Token → Prop}

/-- The reading succeeds with this result, and tokens of these symbols are left. -/
def Reads (x : Except QueryError (α × { rest : List Token // P rest })) (a : α)
    (k : List Symbol) : Prop :=
  ∃ rest h, x = .ok (a, ⟨rest, h⟩) ∧ symbols rest = k

theorem Reads.ok {a : α} {rest : List Token} {h : P rest} {k : List Symbol}
    (hk : symbols rest = k) :
    Reads (.ok (a, ⟨rest, h⟩) : Except QueryError (α × { rest : List Token // P rest })) a k :=
  ⟨rest, h, rfl, hk⟩

theorem Reads.bind {x : Except QueryError (α × { rest : List Token // P rest })}
    {f : α × { rest : List Token // P rest } →
      Except QueryError (β × { rest : List Token // Q rest })} {a : α} {b : β}
    {k k' : List Symbol} (hx : Reads x a k)
    (hf : ∀ rest h, symbols rest = k → Reads (f (a, ⟨rest, h⟩)) b k') : Reads (x >>= f) b k' := by
  obtain ⟨rest, h, rfl, hrest⟩ := hx
  exact hf rest h hrest

theorem Reads.unique {x : Except QueryError (α × { rest : List Token // P rest })} {a a' : α}
    {k k' : List Symbol} (h : Reads x a k) (h' : Reads x a' k') : a = a' ∧ k = k' := by
  obtain ⟨rest, _, rfl, rfl⟩ := h
  obtain ⟨_, _, heq, rfl⟩ := h'
  cases heq
  exact ⟨rfl, rfl⟩

end Readings

theorem skip?_of_symbols {kind : TokenKind} {ts : List Token} {k : List Symbol}
    (h : symbols ts = .mark kind :: k) :
    ∃ rest h, skip? kind ts = some ⟨rest, h⟩ ∧ symbols rest = k := by
  obtain ⟨t, rest, rfl, ht, hrest⟩ := symbols_eq_cons h
  exact ⟨rest, Remainder.lt_cons t rest, by simp [skip?, kind_of_symbol ht], hrest⟩

theorem skip?_eq_none {kind : TokenKind} (hk : kind.hasText = false) {ts : List Token}
    (h : (symbols ts).head? ≠ some (.mark kind)) : skip? kind ts = none := by
  unfold skip?
  split
  · refine if_neg fun ht => h ?_
    rw [symbols, List.map_cons, List.head?_cons, symbol_of_kind (by rw [ht, hk]), ht]
  · rfl

theorem expect_of_symbols {kind : TokenKind} {ts : List Token} {k : List Symbol}
    (h : symbols ts = .mark kind :: k) : ∃ t, Reads (expect kind ts) t k := by
  obtain ⟨t, rest, rfl, ht, hrest⟩ := symbols_eq_cons h
  exact ⟨t, rest, Remainder.lt_cons t rest, by simp [expect, kind_of_symbol ht], hrest⟩

theorem expectIdentifier_of_symbols {ts : List Token} {name : String} {k : List Symbol}
    (h : symbols ts = .name name :: k) : Reads (expectIdentifier ts) name k := by
  obtain ⟨t, rest, rfl, ht, hrest⟩ := symbols_eq_cons h
  obtain ⟨hk, rfl⟩ := kind_of_symbol_name ht
  exact ⟨rest, Remainder.lt_cons t rest, by simp [expectIdentifier, hk], hrest⟩

/-- Symbols that do not go on with an operand begin with no such mark. -/
theorem head_ne_of_ends {kind : TokenKind} {k : List Symbol} (h : kind.ends < endsAll k) :
    k.head? ≠ some (.mark kind) := by
  intro hk
  cases k with
  | nil => cases hk
  | cons s _ =>
    obtain rfl := Option.some.inj hk
    exact Nat.lt_irrefl _ h

theorem readSegments_reads (name : String) (segments : List String) {ts : List Token}
    {k : List Symbol}
    (h : symbols ts = (segments.flatMap fun s => [.mark .dot, .name s]) ++ k)
    (hk : 0 < endsAll k) : Reads (readSegments name ts) (dotted name segments) k := by
  induction segments generalizing name ts with
  | nil =>
    have hhead : (symbols ts).head? ≠ some (.mark .dot) := by
      rw [h]
      exact head_ne_of_ends hk
    unfold readSegments
    rw [skip?_eq_none rfl hhead]
    exact .ok h
  | cons segment segments ih =>
    obtain ⟨rest, hlt, hskip, hrest⟩ := skip?_of_symbols h
    unfold readSegments
    simp only [hskip]
    refine (expectIdentifier_of_symbols hrest).bind fun rest' h' hrest' => ?_
    exact (ih (name ++ "." ++ segment) hrest').bind fun rest'' h'' hrest'' => .ok hrest''

/-! ## Operators that end an operand -/

theorem readChain_none {nesting : CaseNesting} {level : Level} {e : Expr} {ts : List Token}
    (h : ∀ kind, level.operator? kind ≠ none → (symbols ts).head? ≠ some (.mark kind)) :
    Reads (readChain nesting level e ts) e (symbols ts) := by
  unfold readChain
  cases ts with
  | nil => exact .ok rfl
  | cons t rest =>
    have hop : level.operator? t.kind = none := by
      by_contra hne
      have ht : t.kind.hasText = false := by
        generalize t.kind = kind at hne
        cases kind <;> first | rfl | cases level <;> exact absurd rfl hne
      exact h t.kind hne (by rw [symbols, List.map_cons, symbol_of_kind ht, List.head?_cons])
    simp only [hop]
    exact .ok rfl

/-- A level whose operands are not chained. -/
theorem readChain_unchained {nesting : CaseNesting} {level : Level} {e : Expr} {ts : List Token}
    (h : ∀ kind, level.operator? kind = none) :
    Reads (readChain nesting level e ts) e (symbols ts) :=
  readChain_none fun kind hk => absurd (h kind) hk

/-- The next tighter level ends where its level goes on. -/
theorem readChain_next {nesting : CaseNesting} {level : Level} {e : Expr} {ts : List Token}
    (h : level.rank < endsAll (symbols ts)) :
    Reads (readChain nesting level.next e ts) e (symbols ts) := by
  refine readChain_none fun kind hk => head_ne_of_ends (Nat.lt_of_not_ge fun hle => hk ?_)
  exact Level.next_operator?_eq_none (Nat.lt_of_lt_of_le h hle)

theorem readComparison_ends {nesting : CaseNesting} {e : Expr} {ts : List Token}
    (h : 6 < endsAll (symbols ts)) : Reads (readComparison nesting e ts) e (symbols ts) := by
  unfold readComparison
  cases ts with
  | nil => exact .ok rfl
  | cons t rest =>
    have hne : ∀ kind : TokenKind, kind.hasText = false → kind.ends = 6 → t.kind ≠ kind :=
      fun kind hk h5 ht => by
        refine head_ne_of_ends (h5.symm ▸ h : kind.ends < _) ?_
        rw [symbols, List.map_cons, List.head?_cons, symbol_of_kind (by rw [ht, hk]), ht]
    have hcomparison : comparisonOf? t.kind = none := by
      cases hop : comparisonOf? t.kind with
      | none => rfl
      | some op =>
        refine absurd rfl (hne t.kind ?_ (ends_of_comparisonOf? hop))
        generalize t.kind = kind at hop
        cases kind <;> first | rfl | cases hop
    simp only [hcomparison, hne .is_ rfl rfl, hne .in_ rfl rfl, hne .between rfl rfl,
      hne .not_ rfl rfl, if_false]
    exact .ok rfl

/-! ## What a level reads -/

/-- Tokens that begin with the symbols are read as the tree, with what the operators of the level
    add to it. -/
def Readable (level : Level) (ls : List Symbol) (e : Expr) : Prop :=
  ∀ (ts : List Token) (k k' : List Symbol) (e' : Expr), symbols ts = ls ++ k →
    level.rank < endsAll k →
    (∀ rest, symbols rest = k → Reads (readChain .unlimited level e rest) e' k') →
    Reads (readAt .unlimited level ts) e' k'

namespace Readable

variable {level : Level} {ls : List Symbol} {e : Expr}

/-- In front of symbols that do not go on with the level nothing is added. -/
theorem reads (h : Readable level ls e) {ts : List Token} {k : List Symbol}
    (hts : symbols ts = ls ++ k) (hk : level.rank + 1 < endsAll k) :
    Reads (readAt .unlimited level ts) e k := by
  refine h ts k k e hts (by omega) fun rest hrest => hrest ▸ readChain_none fun kind hop => ?_
  obtain ⟨op, hop⟩ := Option.ne_none_iff_exists'.1 hop
  exact head_ne_of_ends (by rw [Level.ends_of_operator? hop, hrest]; exact hk)

/-- A level without operators reads what it reads on its own. -/
theorem of_unchained (hop : ∀ kind, level.operator? kind = none)
    (h : ∀ {ts : List Token} {k : List Symbol}, symbols ts = ls ++ k → level.rank < endsAll k →
      Reads (readAt .unlimited level ts) e k) : Readable level ls e := by
  intro ts k k' e' hts hk hchain
  obtain ⟨rest, hlt, hread, hrest⟩ := h hts hk
  obtain ⟨rfl, rfl⟩ := (readChain_unchained hop).unique (hchain rest hrest)
  exact ⟨rest, hlt, hread, rfl⟩

/-- Such a level reads what may be followed by an operator of the next looser one. -/
theorem unchained (hop : ∀ kind, level.operator? kind = none) (h : Readable level ls e)
    {ts : List Token} {k : List Symbol} (hts : symbols ts = ls ++ k)
    (hk : level.rank < endsAll k) : Reads (readAt .unlimited level ts) e k :=
  h ts k k e hts hk fun _ hrest => hrest ▸ readChain_unchained hop

theorem of_primary
    (h : ∀ {ts : List Token} {k : List Symbol}, symbols ts = ls ++ k → 0 < endsAll k →
      Reads (readPrimary .unlimited ts) e k) : Readable .primary ls e := by
  refine of_unchained (fun _ => rfl) fun hts hk => ?_
  unfold readAt
  exact h hts hk

/-- An operand of a level that groups to the left. -/
theorem of_next_chained (hl : level ∉ [.not, .comparison, .sign, .primary])
    (h : Readable level.next ls e) : Readable level ls e := by
  intro ts k k' e' hts hk hchain
  have hread : Reads (readAt .unlimited level.next ts) e k :=
    h ts k k e hts (Nat.lt_of_le_of_lt level.rank_next_le hk) fun rest hrest =>
      hrest ▸ readChain_next (hrest.symm ▸ hk)
  cases level with
  | not | comparison | sign | primary => simp at hl
  | or | and | concat | additive | multiplicative =>
    unfold readAt
    exact hread.bind fun rest _ hrest => (hchain rest hrest).bind fun _ _ hrest' => .ok hrest'

/-- **An expression of a level** is one of the looser level before it. -/
theorem of_next (hd : Derives level.next ls e) (h : Readable level.next ls e) :
    Readable level ls e := by
  cases level with
  | or | and | concat | additive | multiplicative => exact of_next_chained (by decide) h
  | primary => exact h
  | not =>
    refine of_unchained (fun _ => rfl) fun {ts k} hts hk => ?_
    unfold readAt
    rw [skip?_eq_none rfl (by rw [hts]; exact hd.head_ne (by decide) k)]
    exact h.reads hts hk
  | comparison =>
    refine of_unchained (fun _ => rfl) fun {ts k} hts hk => ?_
    unfold readAt
    refine (h.reads hts (Nat.lt_of_succ_lt hk)).bind fun rest _ hrest => ?_
    have hends : 6 < endsAll (symbols rest) := hrest.symm ▸ hk
    exact (hrest ▸ readComparison_ends hends).bind fun _ _ hrest' => .ok hrest'
  | sign =>
    refine of_unchained (fun _ => rfl) fun {ts k} hts hk => ?_
    unfold readAt
    rw [skip?_eq_none rfl (by rw [hts]; exact hd.head_ne (by decide) k),
      skip?_eq_none rfl (by rw [hts]; exact hd.head_ne (by decide) k)]
    exact h.reads hts hk

end Readable

/-! ## Lists -/

/-- All items are read. -/
abbrev AllReadable (items : List Phrase) : Prop :=
  ∀ i ∈ items, Readable .or i.1 i.2

theorem readItems_reads {p : Phrase} {ps : List Phrase} (h : AllReadable (p :: ps))
    {ts : List Token} {k : List Symbol}
    (hts : symbols ts = separated (p :: ps) ++ .mark .rightParen :: k) :
    Reads (readItems .unlimited ts) ((p :: ps).map Prod.snd) k := by
  induction ps generalizing p ts with
  | nil =>
    rw [separated_singleton] at hts
    unfold readItems
    refine ((h p List.mem_cons_self).reads hts (show 10 < 11 by decide)).bind fun rest _ hrest => ?_
    obtain ⟨rest', _, hskip, hrest'⟩ := skip?_of_symbols hrest
    have hcomma : (symbols rest).head? ≠ some (.mark .comma) := by simp [hrest]
    simp only [skip?_eq_none rfl hcomma, hskip]
    exact .ok hrest'
  | cons q qs ih =>
    rw [separated_cons, List.append_assoc, List.cons_append] at hts
    unfold readItems
    refine ((h p List.mem_cons_self).reads hts (show 10 < 11 by decide)).bind fun rest _ hrest => ?_
    obtain ⟨rest', _, hskip, hrest'⟩ := skip?_of_symbols hrest
    simp only [hskip]
    exact (ih (fun i hi => h i (List.mem_cons_of_mem _ hi)) hrest').bind fun _ _ hrest'' =>
      .ok hrest''

theorem readArgumentList_reads {p : Phrase} {ps : List Phrase} (h : AllReadable (p :: ps))
    {ts : List Token} {k : List Symbol}
    (hts : symbols ts = separated (p :: ps) ++ .mark .rightParen :: k) :
    Reads (readArgumentList .unlimited ts) ((p :: ps).map Prod.snd) k := by
  induction ps generalizing p ts with
  | nil =>
    rw [separated_singleton] at hts
    unfold readArgumentList
    refine ((h p List.mem_cons_self).reads hts (show 10 < 11 by decide)).bind fun rest _ hrest => ?_
    obtain ⟨t, hclose⟩ := expect_of_symbols hrest
    have hcomma : (symbols rest).head? ≠ some (.mark .comma) := by simp [hrest]
    simp only [skip?_eq_none rfl hcomma]
    exact hclose.bind fun _ _ hrest' => .ok hrest'
  | cons q qs ih =>
    rw [separated_cons, List.append_assoc, List.cons_append] at hts
    unfold readArgumentList
    refine ((h p List.mem_cons_self).reads hts (show 10 < 11 by decide)).bind fun rest _ hrest => ?_
    obtain ⟨rest', _, hskip, hrest'⟩ := skip?_of_symbols hrest
    simp only [hskip]
    exact (ih (fun i hi => h i (List.mem_cons_of_mem _ hi)) hrest').bind fun _ _ hrest'' =>
      .ok hrest''

/-- A list that is not empty begins with its first item. -/
theorem separated_head_ne {p : Phrase} {ps : List Phrase} (h : Derives .or p.1 p.2)
    {kind : TokenKind} (hw : 8 < (Symbol.mark kind).weight) (k : List Symbol) :
    (separated (p :: ps) ++ k).head? ≠ some (.mark kind) := by
  cases ps with
  | nil =>
    rw [separated_singleton]
    exact h.head_ne hw k
  | cons q qs =>
    rw [separated_cons, List.append_assoc]
    exact h.head_ne hw _

theorem readArguments_reads {args : List Phrase} (hd : ∀ a ∈ args, Derives .or a.1 a.2)
    (h : AllReadable args) {ts : List Token} {k : List Symbol}
    (hts : symbols ts = separated args ++ .mark .rightParen :: k) :
    Reads (readArguments .unlimited ts) (args.map Prod.snd) k := by
  unfold readArguments
  cases args with
  | nil =>
    obtain ⟨rest, _, hclose, hrest⟩ := skip?_of_symbols hts
    have hstar : (symbols ts).head? ≠ some (.mark .asterisk) := by
      rw [hts]
      exact nofun
    simp only [skip?_eq_none rfl hstar, hclose]
    exact .ok hrest
  | cons p ps =>
    have hhead : ∀ kind : TokenKind, 8 < (Symbol.mark kind).weight →
        (symbols ts).head? ≠ some (.mark kind) := fun kind hw => by
      rw [hts]
      exact separated_head_ne (hd p List.mem_cons_self) hw _
    simp only [skip?_eq_none rfl (hhead .asterisk (by decide)),
      skip?_eq_none rfl (hhead .rightParen (by decide))]
    exact readArgumentList_reads h hts

theorem readMembership_reads (negated : Bool) (left : Expr) {items : List Phrase}
    (hd : ∀ i ∈ items, Derives .or i.1 i.2) (h : AllReadable items) {ts : List Token}
    {k : List Symbol}
    (hts : symbols ts = .mark .leftParen :: (separated items ++ .mark .rightParen :: k)) :
    Reads (readMembership .unlimited left negated ts)
      (.binary (membership negated) left (.list (items.map Prod.snd))) k := by
  obtain ⟨rest, _, hopen, hrest⟩ := skip?_of_symbols hts
  unfold readMembership
  simp only [hopen]
  cases items with
  | nil =>
    obtain ⟨rest', _, hclose, hrest'⟩ := skip?_of_symbols hrest
    simp only [hclose]
    exact .ok hrest'
  | cons p ps =>
    have hclose : (symbols rest).head? ≠ some (.mark .rightParen) := by
      rw [hrest]
      exact separated_head_ne (hd p List.mem_cons_self) (by decide) _
    simp only [skip?_eq_none rfl hclose]
    exact (readItems_reads h hrest).bind fun _ _ hrest' => .ok hrest'

theorem readBetween_reads (negated : Bool) (operand : Expr) (low high : Phrase)
    (hl : Readable .concat low.1 low.2) (hh : Readable .concat high.1 high.2) {ts : List Token}
    {k : List Symbol} (hts : symbols ts = low.1 ++ .mark .and_ :: (high.1 ++ k))
    (hk : 6 < endsAll k) :
    Reads (readBetween .unlimited operand negated ts) (.between negated operand low.2 high.2) k := by
  unfold readBetween
  refine (hl.reads hts (show 5 < 9 by decide)).bind fun rest _ hrest => ?_
  obtain ⟨rest', _, hand, hrest'⟩ := skip?_of_symbols hrest
  simp only [hand]
  exact (hh.reads hrest' (Nat.lt_of_succ_lt hk)).bind fun _ _ hrest'' => .ok hrest''

theorem readNullTest_reads (negated : Bool) (operand : Expr) {ts : List Token} {k : List Symbol}
    (hts : symbols ts = negation negated ++ .mark .null :: k) :
    Reads (readNullTest operand ts)
      (.unary (if negated then .isNotNull else .isNull) operand) k := by
  unfold readNullTest
  cases negated with
  | true =>
    obtain ⟨rest, _, hnot, hrest⟩ := skip?_of_symbols hts
    obtain ⟨rest', _, hnull, hrest'⟩ := skip?_of_symbols hrest
    simp only [hnot, hnull]
    exact .ok hrest'
  | false =>
    obtain ⟨rest, _, hnull, hrest⟩ := skip?_of_symbols hts
    have hnot : (symbols ts).head? ≠ some (.mark .not_) := by
      rw [hts]
      exact nofun
    simp only [skip?_eq_none rfl hnot, hnull]
    exact .ok hrest

/-! ## CASE -/

/-- The conditions and the results of all branches are read. -/
abbrev BranchesReadable (branches : List (Phrase × Phrase)) : Prop :=
  ∀ b ∈ branches, Readable .or b.1.1 b.1.2 ∧ Readable .or b.2.1 b.2.2

theorem readBranches_reads {branches : List (Phrase × Phrase)} (h : BranchesReadable branches)
    {ts : List Token} {k : List Symbol} (hts : symbols ts = branchSymbols branches ++ k)
    (hk : k.head? ≠ some (.mark .when_)) (hends : 10 < endsAll k) :
    Reads (readBranches .unlimited ts) (branches.map fun b => (b.1.2, b.2.2)) k := by
  induction branches generalizing ts with
  | nil =>
    unfold readBranches
    simp only [skip?_eq_none rfl (show (symbols ts).head? ≠ some (.mark .when_) from hts ▸ hk)]
    exact .ok hts
  | cons b rest ih =>
    obtain ⟨hcondition, hresult⟩ := h b List.mem_cons_self
    have hsymbols : symbols ts = .mark .when_ :: (b.1.1 ++ .mark .then_ :: (b.2.1 ++
        (branchSymbols rest ++ k))) := by
      rw [hts]
      simp [branchSymbols]
    have hbehind : 10 < endsAll (branchSymbols rest ++ k) := by
      cases rest with
      | nil => exact hends
      | cons => exact (show 10 < 11 by decide)
    obtain ⟨ts₁, _, hwhen, h₁⟩ := skip?_of_symbols hsymbols
    unfold readBranches
    simp only [hwhen]
    refine (hcondition.reads h₁ (show 10 < 11 by decide)).bind fun ts₂ _ h₂ => ?_
    obtain ⟨t, hthen⟩ := expect_of_symbols h₂
    refine hthen.bind fun ts₃ _ h₃ => ?_
    refine (hresult.reads h₃ hbehind).bind fun ts₄ _ h₄ => ?_
    exact (ih (fun b hb => h b (List.mem_cons_of_mem _ hb)) h₄).bind fun _ _ h₅ => .ok h₅

theorem readCaseBody_reads (operand : Option Expr) {branches : List (Phrase × Phrase)}
    {otherwise : Option Phrase} (hne : branches ≠ []) (h : BranchesReadable branches)
    (ho : ∀ p ∈ otherwise, Readable .or p.1 p.2) {ts : List Token} {k : List Symbol}
    (hts : symbols ts = branchSymbols branches ++ (otherwiseSymbols otherwise ++ k)) :
    Reads (readCaseBody .unlimited operand ts)
      (.cases operand (branches.map fun b => (b.1.2, b.2.2)) (otherwise.map Prod.snd)) k := by
  have hbranches : (branches.map fun b => (b.1.2, b.2.2)).isEmpty = false := by
    cases branches with
    | nil => exact absurd rfl hne
    | cons => rfl
  have hend : (otherwiseSymbols otherwise ++ k).head? ≠ some (.mark .when_) ∧
      10 < endsAll (otherwiseSymbols otherwise ++ k) := by
    cases otherwise with
    | none => exact ⟨fun h => (by cases h), show 10 < 11 by decide⟩
    | some => exact ⟨fun h => (by cases h), show 10 < 11 by decide⟩
  unfold readCaseBody
  refine (readBranches_reads h hts hend.1 hend.2).bind fun rest _ hrest => ?_
  simp only [hbranches, if_false, Bool.false_eq_true]
  cases otherwise with
  | none =>
    have helse : (symbols rest).head? ≠ some (.mark .else_) := by
      rw [hrest]
      intro h
      cases h
    obtain ⟨t, hclose⟩ := expect_of_symbols hrest
    simp only [skip?_eq_none rfl helse]
    exact hclose.bind fun _ _ hrest' => .ok hrest'
  | some p =>
    have hsymbols : symbols rest = .mark .else_ :: (p.1 ++ .mark .end_ :: k) := by
      rw [hrest]
      simp [otherwiseSymbols]
    obtain ⟨rest', _, helse, hrest'⟩ := skip?_of_symbols hsymbols
    simp only [helse]
    refine ((ho p rfl).reads hrest' (show 10 < 11 by decide)).bind fun rest'' _ hrest'' => ?_
    obtain ⟨t, hclose⟩ := expect_of_symbols hrest''
    exact hclose.bind fun _ _ hrest₃ => .ok hrest₃

theorem firstKind_iff {kind : TokenKind} (hk : kind.hasText = false) (heof : kind ≠ .eof)
    (ts : List Token) : firstKind ts = kind ↔ (symbols ts).head? = some (.mark kind) := by
  cases ts with
  | nil => exact ⟨fun h => absurd h.symm heof, nofun⟩
  | cons t rest =>
    refine ⟨fun h => ?_, fun h => kind_of_symbol (Option.some.inj h)⟩
    have ht : t.kind = kind := h
    rw [symbols, List.map_cons, List.head?_cons, symbol_of_kind (by rw [ht, hk]), ht]

theorem readCase_reads {operand otherwise : Option Phrase} {branches : List (Phrase × Phrase)}
    (hne : branches ≠ []) (hd : ∀ p ∈ operand, Derives .or p.1 p.2)
    (hop : ∀ p ∈ operand, Readable .or p.1 p.2) (h : BranchesReadable branches)
    (ho : ∀ p ∈ otherwise, Readable .or p.1 p.2) {ts : List Token} {k : List Symbol}
    (hts : symbols ts = (operand.map Prod.fst).getD [] ++
      (branchSymbols branches ++ (otherwiseSymbols otherwise ++ k))) :
    Reads (readCase .unlimited ts) (.cases (operand.map Prod.snd)
      (branches.map fun b => (b.1.2, b.2.2)) (otherwise.map Prod.snd)) k := by
  unfold readCase
  cases operand with
  | none =>
    have hhead : (symbols ts).head? = some (.mark .when_) := by
      obtain ⟨b, rest, rfl⟩ := List.exists_cons_of_ne_nil hne
      rw [hts]
      rfl
    rw [if_pos ((firstKind_iff rfl (by decide) ts).2 hhead)]
    exact (readCaseBody_reads none hne h ho hts).bind fun _ _ hrest => .ok hrest
  | some p =>
    have hhead : (symbols ts).head? ≠ some (.mark .when_) := by
      rw [hts]
      exact (hd p rfl).head_ne (by decide) _
    have hends : 10 < endsAll (branchSymbols branches ++ (otherwiseSymbols otherwise ++ k)) := by
      obtain ⟨b, rest, rfl⟩ := List.exists_cons_of_ne_nil hne
      exact (show 10 < 11 by decide)
    rw [if_neg (mt (firstKind_iff rfl (by decide) ts).1 hhead)]
    refine ((hop p rfl).reads hts hends).bind fun rest _ hrest => ?_
    exact (readCaseBody_reads (some p.2) hne h ho hrest).bind fun _ _ hrest' => .ok hrest'

/-! ## Productions -/

namespace Readable

theorem text (s : String) : Readable .primary [.text s] (.literal (.text s)) := by
  refine of_primary fun {ts k} hts _ => ?_
  obtain ⟨t, rest, rfl, ht, hrest⟩ := symbols_eq_cons hts
  obtain ⟨hk, rfl⟩ := kind_of_symbol_text ht
  unfold readPrimary
  simp only [constant?, hk]
  exact .ok hrest

theorem keyword {kind : TokenKind} {value : Literal} (h : keyword? kind = some value) :
    Readable .primary [.mark kind] (.literal value) := by
  refine of_primary fun {ts k} hts _ => ?_
  obtain ⟨t, rest, rfl, ht, hrest⟩ := symbols_eq_cons hts
  have hconstant : constant? t = some value := by
    unfold constant?
    rw [kind_of_symbol ht]
    unfold keyword? at h
    split at h <;> first | exact h | cases h
  unfold readPrimary
  simp only [hconstant]
  exact .ok hrest

theorem number {s : String} {value : Literal} (h : numberLiteral? s = some value) :
    Readable .primary [.number s] (.literal value) := by
  refine of_primary fun {ts k} hts _ => ?_
  obtain ⟨t, rest, rfl, ht, hrest⟩ := symbols_eq_cons hts
  obtain ⟨hk, rfl⟩ := kind_of_symbol_number ht
  unfold readPrimary
  simp only [constant?, hk, if_true, h]
  exact .ok hrest

/-- A word that is no constant. -/
theorem readPrimary_name {ts : List Token} {name : String} {k : List Symbol}
    (hts : symbols ts = .name name :: k) :
    ∃ t rest, ts = t :: rest ∧ t.text = name ∧ symbols rest = k ∧ t.kind = .identifier ∧
      constant? t = none := by
  obtain ⟨t, rest, rfl, ht, hrest⟩ := symbols_eq_cons hts
  obtain ⟨hk, htext⟩ := kind_of_symbol_name ht
  exact ⟨t, rest, rfl, htext, hrest, hk, by simp only [constant?, hk]⟩

theorem column (name : String) (segments : List String) :
    Readable .primary (.name name :: segments.flatMap fun s => [.mark .dot, .name s])
      (.column (dotted name segments)) := by
  refine of_primary fun {ts k} hts hk => ?_
  obtain ⟨t, rest, rfl, rfl, hrest, hkind, hconstant⟩ := readPrimary_name hts
  have hcall : (symbols rest).head? ≠ some (.mark .leftParen) := by
    rw [hrest]
    cases segments with
    | nil => exact head_ne_of_ends hk
    | cons => exact nofun
  unfold readPrimary
  simp only [hconstant, hkind, reduceCtorEq, if_false, if_true, skip?_eq_none rfl hcall]
  exact (readSegments_reads t.text segments hrest hk).bind fun _ _ hrest' => .ok hrest'

/-- A call whose arguments are read. -/
theorem of_arguments {name : String} {ls : List Symbol} {args : List Expr}
    (h : ∀ {ts : List Token} {k : List Symbol}, symbols ts = ls ++ k →
      Reads (readArguments .unlimited ts) args k) :
    Readable .primary (.name name :: .mark .leftParen :: ls) (.call name args) := by
  refine of_primary fun {ts k} hts _ => ?_
  obtain ⟨t, rest, rfl, rfl, hrest, hkind, hconstant⟩ := readPrimary_name hts
  obtain ⟨rest', _, hopen, hrest'⟩ := skip?_of_symbols hrest
  unfold readPrimary
  simp only [hconstant, hkind, reduceCtorEq, if_false, if_true, hopen]
  exact (h hrest').bind fun _ _ hrest'' => .ok hrest''

theorem call (name : String) {args : List Phrase} (hd : ∀ a ∈ args, Derives .or a.1 a.2)
    (h : AllReadable args) :
    Readable .primary (.name name :: .mark .leftParen :: (separated args ++ [.mark .rightParen]))
      (.call name (args.map Prod.snd)) :=
  of_arguments fun hts => readArguments_reads hd h (by rw [hts]; simp)

theorem star (name : String) :
    Readable .primary [.name name, .mark .leftParen, .mark .asterisk, .mark .rightParen]
      (.call name []) := by
  refine of_arguments fun {ts k} hts => ?_
  obtain ⟨rest, _, hstar, hrest⟩ := skip?_of_symbols hts
  obtain ⟨t, hclose⟩ := expect_of_symbols hrest
  unfold readArguments
  simp only [hstar]
  exact hclose.bind fun _ _ hrest' => .ok hrest'

theorem paren {ls : List Symbol} {e : Expr} (h : Readable .or ls e) :
    Readable .primary (.mark .leftParen :: (ls ++ [.mark .rightParen])) e := by
  refine of_primary fun {ts k} hts _ => ?_
  obtain ⟨t, rest, rfl, ht, hrest⟩ := symbols_eq_cons hts
  have hread := h.reads (k := .mark .rightParen :: k) (by rw [hrest]; simp)
    (show 10 < 11 by decide)
  unfold readPrimary
  simp only [constant?, kind_of_symbol ht, reduceCtorEq, if_false, if_true]
  refine hread.bind fun rest' _ hrest' => ?_
  obtain ⟨u, hclose⟩ := expect_of_symbols hrest'
  exact hclose.bind fun _ _ hrest'' => .ok hrest''

theorem cases {operand otherwise : Option Phrase} {branches : List (Phrase × Phrase)}
    (hne : branches ≠ []) (hd : ∀ p ∈ operand, Derives .or p.1 p.2)
    (hop : ∀ p ∈ operand, Readable .or p.1 p.2) (h : BranchesReadable branches)
    (ho : ∀ p ∈ otherwise, Readable .or p.1 p.2) :
    Readable .primary (.mark .case_ :: ((operand.map Prod.fst).getD [] ++
      (branchSymbols branches ++ otherwiseSymbols otherwise)))
      (.cases (operand.map Prod.snd) (branches.map fun b => (b.1.2, b.2.2))
        (otherwise.map Prod.snd)) := by
  refine of_primary fun {ts k} hts _ => ?_
  obtain ⟨t, rest, rfl, ht, hrest⟩ := symbols_eq_cons hts
  unfold readPrimary
  simp only [constant?, kind_of_symbol ht, reduceCtorEq, if_false, if_true, CaseNesting.enter?]
  refine (readCase_reads hne hd hop h ho ?_).bind fun _ _ hrest' => .ok hrest'
  rw [hrest]
  simp

/-! ### Levels with one operator in front of their operand -/

theorem not {ls : List Symbol} {e : Expr} (h : Readable .not ls e) :
    Readable .not (.mark .not_ :: ls) (.unary .not e) := by
  refine of_unchained (fun _ => rfl) fun {ts k} hts hk => ?_
  obtain ⟨rest, _, hskip, hrest⟩ := skip?_of_symbols hts
  unfold readAt
  simp only [hskip]
  exact (h.unchained (fun _ => rfl) hrest hk).bind fun _ _ hrest' => .ok hrest'

theorem minus {ls : List Symbol} {e : Expr} (h : Readable .sign ls e) :
    Readable .sign (.mark .minus :: ls) e.negated := by
  refine of_unchained (fun _ => rfl) fun {ts k} hts hk => ?_
  obtain ⟨rest, _, hskip, hrest⟩ := skip?_of_symbols hts
  unfold readAt
  simp only [hskip]
  exact (h.unchained (fun _ => rfl) hrest hk).bind fun _ _ hrest' => .ok hrest'

theorem plus {ls : List Symbol} {e : Expr} (h : Readable .sign ls e) :
    Readable .sign (.mark .plus :: ls) e := by
  refine of_unchained (fun _ => rfl) fun {ts k} hts hk => ?_
  obtain ⟨rest, _, hskip, hrest⟩ := skip?_of_symbols hts
  have hminus : (symbols ts).head? ≠ some (.mark .minus) := by
    rw [hts]
    exact nofun
  unfold readAt
  simp only [skip?_eq_none rfl hminus, hskip]
  exact (h.unchained (fun _ => rfl) hrest hk).bind fun _ _ hrest' => .ok hrest'

/-- An operator between two operands of a level that groups to the left. -/
theorem chain {level : Level} {kind : TokenKind} {op : BinaryOp} {ls ls' : List Symbol}
    {left right : Expr} (hop : level.operator? kind = some op) (hl : Readable level ls left)
    (hr : Readable level.next ls' right) :
    Readable level (ls ++ .mark kind :: ls') (.binary op left right) := by
  intro ts k k' e' hts hk hchain
  have hlevel : level ≠ .primary := by
    rintro rfl
    cases hop
  have hrank := Level.rank_next hlevel
  refine hl ts (.mark kind :: (ls' ++ k)) k' e' (by rw [hts]; simp) ?_ fun rest hrest => ?_
  · show level.rank < kind.ends
    rw [Level.ends_of_operator? hop]
    exact Nat.lt_succ_self _
  · obtain ⟨t, rest', rfl, ht, hrest'⟩ := symbols_eq_cons hrest
    unfold readChain
    simp only [kind_of_symbol ht, hop]
    refine (hr.reads hrest' (by omega)).bind fun rest'' _ hrest'' => ?_
    exact (hchain rest'' hrest'').bind fun _ _ hrest₃ => .ok hrest₃

/-! ### Comparisons -/

/-- What a comparison adds to its left operand. -/
theorem of_comparison {ls ls' : List Symbol} {left e : Expr} (hl : Readable .concat ls left)
    (hends : ∀ k, 5 < endsAll (ls' ++ k))
    (h : ∀ {ts : List Token} {k : List Symbol}, symbols ts = ls' ++ k → 6 < endsAll k →
      Reads (readComparison .unlimited left ts) e k) : Readable .comparison (ls ++ ls') e := by
  refine of_unchained (fun _ => rfl) fun {ts k} hts hk => ?_
  rw [List.append_assoc] at hts
  unfold readAt
  exact (hl.reads hts (hends k)).bind fun rest _ hrest => (h hrest hk).bind fun _ _ hrest' =>
    .ok hrest'

theorem comparison {kind : TokenKind} {op : BinaryOp} {ls ls' : List Symbol} {left right : Expr}
    (hop : comparisonOf? kind = some op) (hl : Readable .concat ls left)
    (hr : Readable .concat ls' right) :
    Readable .comparison (ls ++ .mark kind :: ls') (.binary op left right) := by
  have hends : 5 < kind.ends := by
    rw [ends_of_comparisonOf? hop]
    decide
  refine of_comparison hl (fun _ => hends) fun {ts k} hts hk => ?_
  obtain ⟨t, rest, rfl, ht, hrest⟩ := symbols_eq_cons hts
  unfold readComparison
  simp only [kind_of_symbol ht, hop]
  exact (hr.reads hrest (Nat.lt_of_succ_lt hk)).bind fun _ _ hrest' => .ok hrest'

theorem notLike {ls ls' : List Symbol} {left right : Expr} (hl : Readable .concat ls left)
    (hr : Readable .concat ls' right) :
    Readable .comparison (ls ++ .mark .not_ :: .mark .like :: ls') (.binary .notLike left right) := by
  refine of_comparison hl (fun _ => show 5 < 6 by decide) fun {ts k} hts hk => ?_
  obtain ⟨t, rest, rfl, ht, hrest⟩ := symbols_eq_cons hts
  obtain ⟨u, rest', rfl, hu, hrest'⟩ := symbols_eq_cons hrest
  unfold readComparison
  simp only [kind_of_symbol ht, kind_of_symbol hu, comparisonOf?, reduceCtorEq, if_false, if_true]
  exact (hr.reads hrest' (Nat.lt_of_succ_lt hk)).bind fun _ _ hrest'' => .ok hrest''

theorem nullTest (negated : Bool) {ls : List Symbol} {e : Expr} (hl : Readable .concat ls e) :
    Readable .comparison (ls ++ .mark .is_ :: (negation negated ++ [.mark .null]))
      (.unary (if negated then .isNotNull else .isNull) e) := by
  refine of_comparison hl (fun _ => show 5 < 6 by decide) fun {ts k} hts _ => ?_
  obtain ⟨t, rest, rfl, ht, hrest⟩ := symbols_eq_cons hts
  unfold readComparison
  simp only [kind_of_symbol ht, comparisonOf?, if_true]
  refine (readNullTest_reads negated e ?_).bind fun _ _ hrest' => .ok hrest'
  rw [hrest]
  simp

/-- IN and BETWEEN, with NOT in front of them. -/
theorem of_negatable {negated : Bool} {kind : TokenKind} {ls ls' : List Symbol} {left e : Expr}
    (hkind : kind = .in_ ∨ kind = .between) (hl : Readable .concat ls left)
    (h : ∀ {ts : List Token} {k : List Symbol}, symbols ts = ls' ++ k → 6 < endsAll k →
      if kind = .in_ then Reads (readMembership .unlimited left negated ts) e k
      else Reads (readBetween .unlimited left negated ts) e k) :
    Readable .comparison (ls ++ (negation negated ++ .mark kind :: ls')) e := by
  refine of_comparison hl (fun k => ?_) fun {ts k} hts hk => ?_
  · rcases hkind with rfl | rfl <;> cases negated <;> exact (show 5 < 6 by decide)
  · cases negated with
    | false =>
      obtain ⟨t, rest, rfl, ht, hrest⟩ := symbols_eq_cons hts
      have hread := h hrest hk
      unfold readComparison
      rcases hkind with rfl | rfl
      all_goals
        simp only [kind_of_symbol ht, comparisonOf?, reduceCtorEq, if_false, if_true]
        exact hread.bind fun _ _ hrest' => .ok hrest'
    | true =>
      obtain ⟨t, rest, rfl, ht, hrest⟩ := symbols_eq_cons hts
      obtain ⟨u, rest', rfl, hu, hrest'⟩ := symbols_eq_cons hrest
      have hread := h hrest' hk
      unfold readComparison
      rcases hkind with rfl | rfl
      all_goals
        simp only [kind_of_symbol ht, kind_of_symbol hu, comparisonOf?, reduceCtorEq, if_false,
          if_true]
        exact hread.bind fun _ _ hrest'' => .ok hrest''

theorem membership (negated : Bool) {ls : List Symbol} {e : Expr} {items : List Phrase}
    (hl : Readable .concat ls e) (hd : ∀ i ∈ items, Derives .or i.1 i.2) (h : AllReadable items) :
    Readable .comparison (ls ++ (negation negated ++ .mark .in_ :: .mark .leftParen ::
      (separated items ++ [.mark .rightParen])))
      (.binary (Expr.membership negated) e (.list (items.map Prod.snd))) :=
  of_negatable (Or.inl rfl) hl fun hts _ =>
    readMembership_reads negated e hd h (by rw [hts]; simp)

theorem between (negated : Bool) {ls ls' ls'' : List Symbol} {e low high : Expr}
    (he : Readable .concat ls e) (hl : Readable .concat ls' low)
    (hh : Readable .concat ls'' high) :
    Readable .comparison (ls ++ (negation negated ++ .mark .between ::
      (ls' ++ .mark .and_ :: ls''))) (.between negated e low high) :=
  of_negatable (Or.inr rfl) he fun hts hk =>
    readBetween_reads negated e (ls', low) (ls'', high) hl hh (by rw [hts]; simp) hk

end Readable

/-! ## What is derived is read -/

/-- **What the grammar derives** is read. -/
theorem Derives.readable {level : Level} {ls : List Symbol} {e : Expr} (h : Derives level ls e) :
    Readable level ls e := by
  induction h with
  | next hd ih => exact .of_next hd ih
  | chain hop _ _ ihl ihr => exact .chain hop ihl ihr
  | not _ ih => exact .not ih
  | comparison hop _ _ ihl ihr => exact .comparison hop ihl ihr
  | notLike _ _ ihl ihr => exact .notLike ihl ihr
  | nullTest negated _ ih => exact .nullTest negated ih
  | membership negated _ hi ihl ihi => exact .membership negated ihl hi ihi
  | between negated _ _ _ ihe ihl ihh => exact .between negated ihe ihl ihh
  | minus _ ih => exact .minus ih
  | plus _ ih => exact .plus ih
  | text s => exact .text s
  | keyword h => exact .keyword h
  | number h => exact .number h
  | column name segments => exact .column name segments
  | call name ha ih => exact .call name ha ih
  | star name => exact .star name
  | paren _ ih => exact .paren ih
  | cases hne ho _ _ _ iho ihc ihr ihe =>
    exact .cases hne ho iho (fun b hb => ⟨ihc b hb, ihr b hb⟩) ihe

/-- **A whole text** of the grammar is read as its tree. -/
theorem ofTokens_of_derives {ls : List Symbol} {e : Expr} (h : Derives .or ls e)
    {tokens : List Token} (ht : symbols tokens = ls ++ [.mark .eof]) :
    ofTokens .unlimited tokens = .ok e := by
  obtain ⟨rest, _, hread, hrest⟩ := h.readable.reads ht (show 10 < 11 by decide)
  obtain ⟨t, rest', rfl, heof, -⟩ := symbols_eq_cons hrest
  unfold ofTokens
  rw [hread]
  simp [bind, Except.bind, expectEnd, firstKind, first, kind_of_symbol heof, pure, Except.pure]

/-- A tree that is read from tokens is derived from their symbols. -/
theorem derives_of_ofTokens {nesting : CaseNesting} {tokens : List Token} {e : Expr}
    (h : ofTokens nesting tokens = .ok e) :
    ∃ ls k, symbols tokens = ls ++ k ∧ Derives .or ls e := by
  obtain ⟨⟨e', rest, _⟩, hread, h⟩ := bind_eq_ok.1 h
  obtain ⟨_, -, h⟩ := bind_eq_ok.1 h
  cases h
  obtain ⟨ls, hls, hd⟩ := readAt_derives hread
  exact ⟨ls, _, hls, hd⟩

end Expr

end StreamSql
