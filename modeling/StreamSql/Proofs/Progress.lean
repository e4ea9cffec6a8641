/-
  Progress of the walk over an expression.

  The walk of `walkAt` and the reader `readAt` go side by side: where the cursor stands before the
  tokens `ts`, the walk reads what the reader makes of `ts` and comes to stand before what the
  reader leaves, or both refuse with the same error.  So the walk moves on because the reader uses
  up a token, it closes every CASE that it opened, and how many calls it takes follows from how many
  tokens there are: at most 13 for each token, and as many more as there are levels below.

  * `IsText tokens`: what the tokens of a text are like (`isText_of_tokenize`);
  * `Stands tokens limit openCases ts c`: the cursor `c` stands before `ts`;
  * `Mirrors tokens limit openCases w c x`: the walk `w` from `c` ends as the reader's result `x`
    says;
  * `walkAt_mirrors`: so does every walk that may take enough calls, one lemma for each reader;
  * `readAt_bounded`: no integer that is read is the least word, so each has a negative;
  * `walkAt_progress`: the walk over an expression ends, and makes progress.
-/
import StreamSql.Proofs.Cursor
import StreamSql.Proofs.Sharing
import StreamSql.Proofs.Spans
import StreamSql.Proofs.Spelling

namespace StreamSql

/-! ## The tokens of a text -/

namespace Token

/-- The only end of the text comes last, and numbers begin with a digit. -/
structure IsText (tokens : List Token) : Prop where
  ends : ∃ before last, tokens = before ++ [last] ∧ last.kind = .eof ∧
    ∀ t ∈ before, t.kind ≠ .eof
  digit : ∀ t ∈ tokens, t.kind = .number → ∃ c, t.text.toList.head? = some c ∧ c.isDigit = true

theorem isText_of_tokenize {text : String} {tokens : List Token} (h : tokenize text = .ok tokens) :
    IsText tokens where
  ends := by
    obtain ⟨segments, hsplits, rfl⟩ := tokenize_eq_ok_iff.1 h
    exact ⟨_, _, rfl, rfl, hsplits.kind_ne_eof 0⟩
  digit _ ht hkind := digit_of_tokenize h ht hkind

/-- The tokens from a position on; the last one from beyond the end. -/
def left (tokens : List Token) (position : ℕ) : List Token :=
  tokens.drop (min position (tokens.length - 1))

theorem left_subset (tokens : List Token) (position : ℕ) : left tokens position ⊆ tokens :=
  List.drop_subset _ _

theorem length_left (tokens : List Token) (position : ℕ) :
    (left tokens position).length = tokens.length - min position (tokens.length - 1) :=
  List.length_drop

theorem head?_left (tokens : List Token) (position : ℕ) :
    (left tokens position).head? = tokens[min position (tokens.length - 1)]? :=
  List.head?_drop

namespace IsText

variable {tokens : List Token} (h : IsText tokens)

include h

theorem length_pos : 0 < tokens.length := by
  obtain ⟨before, last, rfl, -, -⟩ := h.ends
  simp

theorem left_ne_nil (position : ℕ) : left tokens position ≠ [] := by
  have hpos := h.length_pos
  have hlength := length_left tokens position
  intro hnil
  rw [hnil, List.length_nil] at hlength
  omega

/-- Only the last token is the end of the text. -/
theorem left_cons {position : ℕ} {t : Token} {rest : List Token}
    (hleft : left tokens position = t :: rest) (ht : t.kind ≠ .eof) :
    position + 1 < tokens.length ∧ tokens.drop (position + 1) = rest := by
  obtain ⟨before, last, rfl, hlast, -⟩ := h.ends
  unfold left at hleft
  rw [List.length_append, List.length_singleton, Nat.add_sub_cancel] at hleft
  rcases Nat.lt_or_ge position before.length with hlt | hge
  · rw [Nat.min_eq_left (Nat.le_of_lt hlt)] at hleft
    refine ⟨by simpa using hlt, ?_⟩
    rw [← List.tail_drop, hleft, List.tail_cons]
  · rw [Nat.min_eq_right hge, List.drop_left] at hleft
    obtain ⟨rfl, -⟩ := List.cons.inj hleft
    exact absurd hlast ht

theorem left_succ {position : ℕ} {t : Token} {rest : List Token}
    (hleft : left tokens position = t :: rest) (ht : t.kind ≠ .eof) :
    left tokens (position + 1) = rest := by
  obtain ⟨hlt, hrest⟩ := h.left_cons hleft ht
  rw [left, Nat.min_eq_left (by omega), hrest]

theorem findIdx_eof : tokens.findIdx (·.kind = .eof) = tokens.length - 1 := by
  obtain ⟨before, last, rfl, hlast, hbefore⟩ := h.ends
  rw [List.length_append, List.length_singleton, Nat.add_sub_cancel]
  refine (List.findIdx_eq (by simp)).2 ⟨by simpa using hlast, fun j hj => ?_⟩
  rw [List.getElem_append_left hj]
  simpa using hbefore _ (List.getElem_mem hj)

end IsText

end Token

namespace Expr

open Token

/-! ## Walks from a cursor -/

namespace Walk

variable {α β : Type} {w : Walk α} {f : α → Walk β} {c c' : Cursor}

theorem outcome_bind_ok {a : α} (h : w.outcome c = some (.ok a, c')) :
    (w >>= f).outcome c = (f a).outcome c' := by
  change Option.bind (w.outcome c) _ = _
  rw [h]
  rfl

theorem outcome_bind_error {e : QueryError} (h : w.outcome c = some (.error e, c')) :
    (w >>= f).outcome c = some (.error e, c') := by
  change Option.bind (w.outcome c) _ = _
  rw [h]
  rfl

theorem outcome_current {tokens : List Token} {t : Token} {rest : List Token}
    (h : left tokens c.position = t :: rest) :
    (current tokens).outcome c = some (.ok t, c) := by
  change Option.map _ tokens[min c.position (tokens.length - 1)]? = _
  rw [← head?_left, h]
  rfl

theorem outcome_negate {e : Expr} (h : ∀ n, e = .literal (.integer n) → Word.least < n.toInt) :
    (negate e).outcome c = some (.ok e.negated, c) := by
  unfold negate
  split
  · next n =>
    have hneg := Word.ofInt?_eq_some_iff.2 (toInt_neg (h n rfl))
    change Option.map _ (Word.ofInt? (-n.toInt)) = _
    rw [hneg]
    rfl
  · rfl
  · next hint hfloat =>
    have hneg : e.negated = .unary .minus e := by
      unfold Expr.negated
      split
      · next n => exact absurd rfl (hint n)
      · next x => exact absurd rfl (hfloat x)
      · rfl
    rw [hneg]
    rfl

end Walk

/-! ## Walks along a reader -/

theorem skip?_cons (kind : TokenKind) (t : Token) (rest : List Token) :
    skip? kind (t :: rest) =
      if t.kind = kind then some ⟨rest, Remainder.lt_cons t rest⟩ else none :=
  rfl

/-- The cursor stands before `ts`, not beyond `limit`, with so many CASE expressions open. -/
structure Stands (tokens : List Token) (limit openCases : ℕ) (ts : List Token) (c : Cursor) :
    Prop where
  left : left tokens c.position = ts
  within : c.position ≤ limit
  counter : c.openCases = openCases

theorem Stands.subset {tokens ts : List Token} {limit openCases : ℕ} {c : Cursor}
    (h : Stands tokens limit openCases ts c) : ts ⊆ tokens := by
  rw [← h.left]
  exact left_subset tokens c.position

section

variable {α β : Type} {P Q : List Token → Prop}

/-- The walk ends as the reader's result says: with the same, before what is left of the tokens, or
    with the same error.  In both cases as many CASE expressions are open as before. -/
inductive Mirrors (tokens : List Token) (limit openCases : ℕ) (w : Walk α) (c : Cursor) :
    Except QueryError (α × { rest : List Token // P rest }) → Prop
  | read {a : α} {rest : { rest : List Token // P rest }} {c' : Cursor} :
      w.outcome c = some (.ok a, c') → Stands tokens limit openCases rest.1 c' →
      Mirrors tokens limit openCases w c (.ok (a, rest))
  | refused {e : QueryError} {c' : Cursor} : w.outcome c = some (.error e, c') →
      c'.openCases = openCases → Mirrors tokens limit openCases w c (.error e)

variable {tokens ts rest : List Token} {limit k : ℕ} {c : Cursor} {t : Token}
  {w w' : Walk α} {f : α → Walk β} {x y : Except QueryError (α × { rest : List Token // P rest })}

namespace Mirrors

/-- What stands from the same cursor on is walked in the same way. -/
theorem of_outcome {v : Walk β} {c' : Cursor} {z : Except QueryError (β × { rest // Q rest })}
    {v' : Walk β} (hv : v.outcome c = v'.outcome c') (h : Mirrors tokens limit k v' c' z) :
    Mirrors tokens limit k v c z := by
  cases h with
  | read hw hc' => exact .read (hv.trans hw) hc'
  | refused hw hc' => exact .refused (hv.trans hw) hc'

theorem done {a : α} {rest : { rest : List Token // P rest }}
    (hc : Stands tokens limit k rest.1 c) :
    Mirrors tokens limit k (pure a : Walk α) c (.ok (a, rest)) :=
  .read rfl hc

/-- Something is read, and the walk goes on behind it. -/
theorem bind {g : α × { rest : List Token // P rest } →
      Except QueryError (β × { rest : List Token // Q rest })} (h : Mirrors tokens limit k w c x)
    (hf : ∀ a rest (hrest : P rest) c', Stands tokens limit k rest c' → x = .ok (a, ⟨rest, hrest⟩) →
      Mirrors tokens limit k (f a) c' (g (a, ⟨rest, hrest⟩))) :
    Mirrors tokens limit k (w >>= f) c (x >>= g) := by
  cases h with
  | @read a rest c' hw hc' =>
    exact .of_outcome (Walk.outcome_bind_ok hw) (hf a rest.1 rest.2 c' hc' rfl)
  | refused hw hc' => exact .refused (Walk.outcome_bind_error hw) hc'

/-- The walk is that of a reader whose result only says more about the tokens left. -/
theorem same {g : α × { rest : List Token // P rest } →
      Except QueryError (α × { rest : List Token // Q rest })} (h : Mirrors tokens limit k w c x)
    (hg : ∀ a rest, ∃ rest', g (a, rest) = .ok (a, rest') ∧ rest'.1 = rest.1) :
    Mirrors tokens limit k w c (x >>= g) := by
  cases h with
  | @read a rest c' hw hc' =>
    obtain ⟨rest', hga, hrest⟩ := hg a rest
    change Mirrors tokens limit k w c (g (a, rest))
    rw [hga]
    exact .read hw (hrest ▸ hc')
  | refused hw hc' => exact .refused hw hc'

theorem ite {p : Prop} [Decidable p] (ht : p → Mirrors tokens limit k w c x)
    (hf : ¬ p → Mirrors tokens limit k w' c y) :
    Mirrors tokens limit k (if p then w else w') c (if p then x else y) := by
  by_cases hp : p
  · rw [if_pos hp, if_pos hp]
    exact ht hp
  · rw [if_neg hp, if_neg hp]
    exact hf hp

/-- The token at the cursor is looked at. -/
theorem current {f : Token → Walk α} (hc : Stands tokens limit k (t :: rest) c)
    (h : Mirrors tokens limit k (f t) c x) :
    Mirrors tokens limit k (Walk.current tokens >>= f) c x :=
  .of_outcome (Walk.outcome_bind_ok (Walk.outcome_current hc.left)) h

end Mirrors

/-- A cursor may stand before any token of the text. -/
structure Walkable (tokens : List Token) (limit : ℕ) : Prop extends IsText tokens where
  length_le : tokens.length ≤ limit + 1

namespace Walkable

variable (h : Walkable tokens limit)

include h

theorem ne_nil (hc : Stands tokens limit k ts c) : ts ≠ [] :=
  hc.left ▸ h.left_ne_nil c.position

theorem first {f : Token → Walk α} (hc : Stands tokens limit k ts c)
    (hf : Mirrors tokens limit k (f (Token.first ts)) c x) :
    Mirrors tokens limit k (Walk.current tokens >>= f) c x := by
  obtain ⟨t, rest, rfl⟩ := List.exists_cons_of_ne_nil (h.ne_nil hc)
  exact .current hc hf

theorem advance (hc : Stands tokens limit k (t :: rest) c) (ht : t.kind ≠ .eof) :
    Stands tokens limit k rest { c with position := c.position + 1 } where
  left := h.left_succ hc.left ht
  within := by
    have hlt := (h.left_cons hc.left ht).1
    have hlimit := h.length_le
    change c.position + 1 ≤ limit
    omega
  counter := hc.counter

theorem outcome_advance (hc : Stands tokens limit k (t :: rest) c) (ht : t.kind ≠ .eof) :
    (Walk.advance tokens).outcome c = some (.ok (), { c with position := c.position + 1 }) := by
  change some (Except.ok (), ite _ _ _) = _
  rw [if_pos (h.left_cons hc.left ht).1]

/-- The cursor moves to the next token. -/
theorem pass {f : Unit → Walk α} (hc : Stands tokens limit k (t :: rest) c) (ht : t.kind ≠ .eof)
    (hf : ∀ c', Stands tokens limit k rest c' → Mirrors tokens limit k (f ()) c' x) :
    Mirrors tokens limit k (Walk.advance tokens >>= f) c x :=
  .of_outcome (Walk.outcome_bind_ok (h.outcome_advance hc ht)) (hf _ (h.advance hc ht))

/-- The token behind the cursor is looked at. -/
theorem peek {f : Option Token → Walk α} (hc : Stands tokens limit k (t :: rest) c)
    (ht : t.kind ≠ .eof) (hf : Mirrors tokens limit k (f rest.head?) c x) :
    Mirrors tokens limit k (Walk.peek tokens 1 >>= f) c x := by
  refine .of_outcome (Walk.outcome_bind_ok ?_) hf
  change some (Except.ok tokens[c.position + 1]?, c) = _
  rw [← (h.left_cons hc.left ht).2, List.head?_drop]

theorem refuse {fault : ParseFault} (hc : Stands tokens limit k ts c) :
    Mirrors tokens limit k (Walk.refuse tokens fault : Walk α) c
      (Token.refuse ts fault : Except QueryError (α × { rest : List Token // P rest })) :=
  h.first hc (.refused rfl hc.counter)

theorem skip_some {kind : TokenKind} (hk : decide (kind = .eof) = false)
    (hc : Stands tokens limit k ts c) {hrest : rest.length < ts.length}
    (hs : skip? kind ts = some ⟨rest, hrest⟩)
    (hw : ∀ c', Stands tokens limit k rest c' → Mirrors tokens limit k w c' x) :
    Mirrors tokens limit k (Walk.consumeIf tokens kind >>= fun b => if b = true then w else w')
      c x := by
  obtain ⟨t, tail, rfl⟩ := List.exists_cons_of_ne_nil (h.ne_nil hc)
  rw [skip?_cons] at hs
  split at hs
  · next ht =>
    cases hs
    have hk' : t.kind ≠ .eof := ht ▸ of_decide_eq_false hk
    have hpassed : (Walk.consumeIf tokens kind).outcome c =
        some (.ok true, { c with position := c.position + 1 }) := by
      rw [Walk.consumeIf, Walk.outcome_bind_ok (Walk.outcome_current hc.left), if_pos ht,
        Walk.outcome_bind_ok (h.outcome_advance hc hk')]
      rfl
    exact .of_outcome (Walk.outcome_bind_ok hpassed) (hw _ (h.advance hc hk'))
  · cases hs

theorem skip_none {kind : TokenKind} (hc : Stands tokens limit k ts c)
    (hs : skip? kind ts = none) (hw : Mirrors tokens limit k w' c x) :
    Mirrors tokens limit k (Walk.consumeIf tokens kind >>= fun b => if b = true then w else w')
      c x := by
  obtain ⟨t, tail, rfl⟩ := List.exists_cons_of_ne_nil (h.ne_nil hc)
  rw [skip?_cons] at hs
  split at hs
  · cases hs
  · next ht =>
    have hkept : (Walk.consumeIf tokens kind).outcome c = some (.ok false, c) := by
      rw [Walk.consumeIf, Walk.outcome_bind_ok (Walk.outcome_current hc.left), if_neg ht]
      rfl
    exact .of_outcome (Walk.outcome_bind_ok hkept) hw

theorem expect {kind : TokenKind} (hk : decide (kind = .eof) = false)
    (hc : Stands tokens limit k ts c) :
    Mirrors tokens limit k (Walk.expect tokens kind) c (Token.expect kind ts) := by
  obtain ⟨t, rest, rfl⟩ := List.exists_cons_of_ne_nil (h.ne_nil hc)
  refine .current hc (.ite (fun ht => ?_) fun _ => h.refuse hc)
  exact h.pass hc (ht ▸ of_decide_eq_false hk) fun c' hc' => .done hc'

theorem expectIdentifier (hc : Stands tokens limit k ts c) :
    Mirrors tokens limit k (Walk.expectIdentifier tokens) c (Token.expectIdentifier ts) := by
  obtain ⟨t, rest, rfl⟩ := List.exists_cons_of_ne_nil (h.ne_nil hc)
  refine .current hc (.ite (fun ht => ?_) fun _ => h.refuse hc)
  exact h.pass hc (by rw [ht]; exact nofun) fun c' hc' => .done hc'

end Walkable

end

/-! ## Modes and counters -/

theorem Mode.refuses_of_enter? {mode : Mode} {k : ℕ} (h : (mode.nesting k).enter? = none) :
    mode = .restricted ∧ 0 < k := by
  cases mode with
  | permissive => cases h
  | restricted =>
    cases k with
    | zero => cases h
    | succ k => exact ⟨rfl, Nat.succ_pos k⟩

theorem Mode.opens_of_enter? {mode : Mode} {k : ℕ} {inner : CaseNesting}
    (h : (mode.nesting k).enter? = some inner) :
    ¬ (mode = .restricted ∧ 0 < k) ∧ inner = mode.nesting (k + 1) := by
  cases mode with
  | permissive =>
    cases h
    exact ⟨nofun, rfl⟩
  | restricted =>
    cases k with
    | zero =>
      cases h
      exact ⟨fun hopen => absurd hopen.2 (Nat.lt_irrefl 0), rfl⟩
    | succ k => cases h

section

variable {α : Type} {P : List Token → Prop} {tokens ts : List Token} {limit k : ℕ} {mode : Mode}
  {c : Cursor} {position : ℕ} {body : Walk α}

/-- A CASE that may not be opened is refused at its keyword. -/
theorem enclosed_refused (hc : Stands tokens limit k ts c)
    (hn : (mode.nesting k).enter? = none) :
    Mirrors tokens limit k (Walk.enclosed mode position body) c
      (.error (.nestedCase position) : Except QueryError (α × { rest // P rest })) := by
  have hopen : mode = .restricted ∧ 0 < c.openCases := hc.counter ▸ Mode.refuses_of_enter? hn
  exact .refused (if_pos hopen) hc.counter

/-- One more CASE is open inside, and it is closed behind. -/
theorem enclosed_opened {inner : CaseNesting} {x : Except QueryError (α × { rest // P rest })}
    (hc : Stands tokens limit k ts c) (hn : (mode.nesting k).enter? = some inner)
    (h : ∀ c', Stands tokens limit (k + 1) ts c' → Mirrors tokens limit (k + 1) body c' x) :
    Mirrors tokens limit k (Walk.enclosed mode position body) c x := by
  have hclosed : ¬ (mode = .restricted ∧ 0 < c.openCases) :=
    hc.counter ▸ (Mode.opens_of_enter? hn).1
  have hinside : Stands tokens limit (k + 1) ts { c with openCases := c.openCases + 1 } :=
    ⟨hc.left, hc.within, congrArg (· + 1) hc.counter⟩
  have houtcome : ∀ {result c'},
      body.outcome { c with openCases := c.openCases + 1 } = some (result, c') →
      (Walk.enclosed mode position body).outcome c =
        some (result, { c' with openCases := c'.openCases - 1 }) := by
    intro result c' hbody
    refine (if_neg hclosed).trans ?_
    rw [hbody]
    rfl
  cases h _ hinside with
  | read hw hc' =>
    exact .read (houtcome hw) ⟨hc'.left, hc'.within, congrArg (· - 1) hc'.counter⟩
  | refused hw hc' => exact .refused (houtcome hw) (congrArg (· - 1) hc')

end

/-! ## Integers that are read -/

/-- All columns, calls and constants but the least word. -/
def Vocabulary.bounded : Vocabulary where
  column _ := True
  call _ _ := True
  literal
    | .integer n => Word.least < n.toInt
    | _ => True

theorem Grammatical.spells {v : Vocabulary} {e : Expr} (h : Grammatical v e) : v.Spells e := by
  induction h with
  | column h => exact forall_subterms h nofun
  | literal h => exact forall_subterms h nofun
  | binary _ _ _ _ ihl ihr =>
    exact forall_subterms trivial (List.forall_mem_cons.2 ⟨ihl, List.forall_mem_singleton.2 ihr⟩)
  | membership _ _ ihl ihi =>
    exact forall_subterms trivial (List.forall_mem_cons.2
      ⟨ihl, List.forall_mem_singleton.2 (forall_subterms trivial ihi)⟩)
  | unary _ _ ih => exact forall_subterms trivial (List.forall_mem_singleton.2 ih)
  | call h _ ih => exact forall_subterms h ih
  | cases _ _ _ _ _ iho ihc ihr ihe =>
    exact forall_subterms trivial (forall_parts_cases iho ihc ihr ihe)
  | between _ _ _ ih₁ ih₂ ih₃ =>
    exact forall_subterms trivial (List.forall_mem_cons.2
      ⟨ih₁, List.forall_mem_cons.2 ⟨ih₂, List.forall_mem_singleton.2 ih₃⟩⟩)

theorem bounded_covers {ls : List Symbol}
    (hdigit : ∀ s, .number s ∈ ls → ∃ c, s.toList.head? = some c ∧ c.isDigit = true) :
    Vocabulary.bounded.Covers ls where
  text _ := trivial
  keyword {kind value} h := by
    unfold keyword? at h
    split at h <;> cases h <;> trivial
  number {s value} hs h := by
    cases value with
    | integer n =>
      obtain ⟨c, hc, hd⟩ := hdigit s hs
      exact least_lt_of_numberLiteral? h hc hd
    | text | float | boolean | null => trivial
  integer h := least_lt_neg h
  float _ := trivial
  column _ _ := trivial
  call _ _ := trivial

/-- **No integer of a tree that is read is the least word.** -/
theorem readAt_bounded {tokens ts : List Token} (htext : IsText tokens) (hsub : ts ⊆ tokens)
    {nesting : CaseNesting} {level : Level} {e : Expr}
    {rest : { rest : List Token // rest.length < ts.length }}
    (h : readAt nesting level ts = .ok (e, rest)) : Vocabulary.bounded.Spells e := by
  obtain ⟨ls, hls, hd⟩ := readAt_derives h
  refine (hd.grammatical (bounded_covers fun s hs => ?_)).spells
  have hmem : .number s ∈ Token.symbols ts := hls ▸ List.mem_append_left _ hs
  obtain ⟨t, ht, hsymbol⟩ := List.mem_map.1 hmem
  obtain ⟨hkind, rfl⟩ := kind_of_symbol_number hsymbol
  exact htext.digit t (hsub ht) hkind

/-! ## Numbers of calls -/

theorem Level.height_lt (level : Level) : level.height < 9 := by
  cases level <;> simp [height]

/-- `n` calls inside one another are enough for a walk over `ts`, where `m` more calls may come
    before the next token is passed.  There are never more than 12 of these. -/
def Enough (ts : List Token) (m n : ℕ) : Prop :=
  13 * ts.length + m < n

namespace Enough

variable {ts rest : List Token} {t : Token} {m m' n : ℕ}

/-- A call that takes over all tokens. -/
theorem on (h : Enough ts (m + 1) (n + 1)) : Enough ts m n := by
  unfold Enough at *
  omega

/-- A call behind the next token. -/
theorem behind (h : Enough ts m (n + 1)) (hrest : rest.length < ts.length)
    (hm : m' ≤ 12 := by decide) : Enough rest m' n := by
  unfold Enough at *
  omega

theorem tail (h : Enough (t :: ts) m (n + 1)) (hm : m' ≤ 12 := by decide) : Enough ts m' n :=
  h.behind (Remainder.lt_cons t ts) hm

theorem fewer (h : Enough ts m n) (hm : m' ≤ m := by decide) : Enough ts m' n :=
  Nat.lt_of_le_of_lt (Nat.add_le_add_left hm _) h

theorem length_lt (h : Enough (t :: ts) m (n + 1)) : ts.length < n := by
  unfold Enough at h
  rw [List.length_cons] at h
  omega

end Enough

/-! ## Walks of the readers -/

theorem Level.ne_eof_of_operator? {level : Level} {kind : TokenKind} {op : BinaryOp}
    (h : level.operator? kind = some op) : kind ≠ .eof := by
  rintro rfl
  cases level <;> cases h

theorem ne_eof_of_comparisonOf? {kind : TokenKind} {op : BinaryOp}
    (h : comparisonOf? kind = some op) : kind ≠ .eof := by
  rintro rfl
  cases h

theorem ne_eof_of_constant? {t : Token} {value : Literal} (h : constant? t = some value) :
    t.kind ≠ .eof := by
  intro ht
  rw [constant?, ht] at h
  cases h

section

variable {tokens ts : List Token} {limit k : ℕ} {c : Cursor}

theorem nullTest_mirrors (h : Walkable tokens limit) (operand : Expr)
    (hc : Stands tokens limit k ts c) :
    Mirrors tokens limit k (Walk.nullTest tokens operand) c (readNullTest operand ts) := by
  unfold Walk.nullTest readNullTest
  split
  · next rest _ hs =>
    refine h.skip_some rfl hc hs fun c' hc' => ?_
    split
    · next hs' => exact h.skip_some rfl hc' hs' fun c'' hc'' => .done hc''
    · next hs' => exact h.skip_none hc' hs' (h.refuse hc')
  · next hs =>
    refine h.skip_none hc hs ?_
    split
    · next hs' => exact h.skip_some rfl hc hs' fun c' hc' => .done hc'
    · next hs' => exact h.skip_none hc hs' (h.refuse hc)

theorem segments_mirrors (h : Walkable tokens limit) {n : ℕ} (name : String)
    (hn : ts.length < n) (hc : Stands tokens limit k ts c) :
    Mirrors tokens limit k (Walk.segments tokens n name) c (readSegments name ts) := by
  induction n generalizing name ts c with
  | zero => exact absurd hn (Nat.not_lt_zero _)
  | succ n ih =>
    unfold Walk.segments readSegments
    split
    · next hs => exact h.skip_none hc hs (.done hc)
    · next rest hrest hs =>
      refine h.skip_some rfl hc hs fun c' hc' => ?_
      refine .bind (h.expectIdentifier hc') fun segment rest' hrest' c'' hc'' _ => ?_
      exact .same (ih (name ++ "." ++ segment) (by omega) hc'') fun _ _ => ⟨_, rfl, rfl⟩

end

section

variable {tokens : List Token} {limit : ℕ} (h : Walkable tokens limit) (mode : Mode)

include h

mutual

theorem walkAt_mirrors : ∀ (n : ℕ) (level : Level) {ts : List Token} {k : ℕ} {c : Cursor},
    Enough ts (level.height + 1) n → Stands tokens limit k ts c →
      Mirrors tokens limit k (walkAt tokens mode n level) c (readAt (mode.nesting k) level ts)
  | 0, _, _, _, _, hn, _ => absurd hn (Nat.not_lt_zero _)
  | n + 1, .not, ts, k, c, hn, hc => by
    unfold walkAt readAt
    split
    · next rest hrest hs =>
      refine h.skip_some rfl hc hs fun c' hc' => ?_
      exact .bind (walkAt_mirrors n .not (hn.behind hrest) hc') fun e rest' _ c'' hc'' _ =>
        .done hc''
    · next hs => exact h.skip_none hc hs (walkAt_mirrors n .comparison hn.on hc)
  | n + 1, .sign, ts, k, c, hn, hc => by
    unfold walkAt readAt
    split
    · next rest hrest hs =>
      refine h.skip_some rfl hc hs fun c' hc' => ?_
      refine .bind (walkAt_mirrors n .sign (hn.behind hrest) hc') fun e rest' _ c'' hc'' hread => ?_
      refine .read (Walk.outcome_negate ?_) hc''
      rintro m rfl
      exact readAt_bounded h.toIsText hc'.subset hread _ (self_mem_subterms _)
    · next hs =>
      refine h.skip_none hc hs ?_
      split
      · next rest hrest hs' =>
        refine h.skip_some rfl hc hs' fun c' hc' => ?_
        exact .same (walkAt_mirrors n .sign (hn.behind hrest) hc') fun _ _ => ⟨_, rfl, rfl⟩
      · next hs' => exact h.skip_none hc hs' (walkAt_mirrors n .primary hn.on hc)
  | n + 1, .primary, ts, k, c, hn, hc => by
    unfold walkAt readAt
    exact walkPrimary_mirrors n hn.on hc
  | n + 1, .comparison, ts, k, c, hn, hc => by
    unfold walkAt readAt
    refine .bind (walkAt_mirrors n .concat hn.on hc) fun left rest hrest c' hc' _ => ?_
    exact .same (walkComparison_mirrors n left (hn.behind hrest) hc') fun _ _ => ⟨_, rfl, rfl⟩
  | n + 1, .or, ts, k, c, hn, hc | n + 1, .and, ts, k, c, hn, hc | n + 1, .concat, ts, k, c, hn, hc
  | n + 1, .additive, ts, k, c, hn, hc | n + 1, .multiplicative, ts, k, c, hn, hc => by
    unfold walkAt readAt
    refine .bind (walkAt_mirrors n _ hn.on hc) fun left rest hrest c' hc' _ => ?_
    exact .same (walkChain_mirrors n _ left (hn.behind hrest) hc') fun _ _ => ⟨_, rfl, rfl⟩

theorem walkChain_mirrors : ∀ (n : ℕ) (level : Level) (left : Expr) {ts : List Token} {k : ℕ}
    {c : Cursor}, Enough ts 0 n → Stands tokens limit k ts c →
      Mirrors tokens limit k (walkChain tokens mode n level left) c
        (readChain (mode.nesting k) level left ts)
  | 0, _, _, _, _, _, hn, _ => absurd hn (Nat.not_lt_zero _)
  | n + 1, _, _, [], _, c, _, hc => absurd rfl (h.ne_nil hc)
  | n + 1, level, left, t :: ts, k, c, hn, hc => by
    unfold walkChain readChain
    refine .current hc ?_
    cases hop : level.operator? t.kind with
    | none => exact .done hc
    | some op =>
      refine h.pass hc (Level.ne_eof_of_operator? hop) fun c' hc' => ?_
      have hheight : level.next.height + 1 ≤ 12 :=
        Nat.le_trans level.next.height_lt (Nat.le_add_right 9 3)
      refine .bind (walkAt_mirrors n level.next (hn.tail hheight) hc')
        fun right rest hrest c'' hc'' _ => ?_
      exact .same (walkChain_mirrors n level (.binary op left right)
        (hn.behind (Remainder.lt_cons_of_lt hrest)) hc'') fun _ _ => ⟨_, rfl, rfl⟩

theorem walkComparison_mirrors : ∀ (n : ℕ) (left : Expr) {ts : List Token} {k : ℕ} {c : Cursor},
    Enough ts 0 n → Stands tokens limit k ts c →
      Mirrors tokens limit k (walkComparison tokens mode n left) c
        (readComparison (mode.nesting k) left ts)
  | 0, _, _, _, _, hn, _ => absurd hn (Nat.not_lt_zero _)
  | n + 1, _, [], _, c, _, hc => absurd rfl (h.ne_nil hc)
  | n + 1, left, t :: ts, k, c, hn, hc => by
    unfold walkComparison readComparison
    refine .current hc ?_
    cases hop : comparisonOf? t.kind with
    | some op =>
      refine h.pass hc (ne_eof_of_comparisonOf? hop) fun c' hc' => ?_
      exact .bind (walkAt_mirrors n .concat hn.tail hc') fun right rest _ c'' hc'' _ => .done hc''
    | none =>
      refine .ite (fun ht => ?is) fun _ => .ite (fun ht => ?isIn) fun _ =>
        .ite (fun ht => ?between) fun _ => .ite (fun ht => ?isNot) fun _ => .done hc
      all_goals have hne : t.kind ≠ .eof := ne_of_eq_of_ne ht nofun
      case is =>
        refine h.pass hc hne fun c' hc' => ?_
        exact .same (nullTest_mirrors h left hc') fun _ _ => ⟨_, rfl, rfl⟩
      case isIn =>
        refine h.pass hc hne fun c' hc' => ?_
        exact .same (walkMembership_mirrors n left false hn.tail hc') fun _ _ => ⟨_, rfl, rfl⟩
      case between =>
        refine h.pass hc hne fun c' hc' => ?_
        exact .same (walkBetween_mirrors n left false hn.tail hc') fun _ _ => ⟨_, rfl, rfl⟩
      case isNot =>
        refine h.peek hc hne ?_
        match ts with
        | [] => exact .done hc
        | u :: us =>
          have hshorter : us.length < (t :: u :: us).length := Remainder.lt_cons₂ t u us
          refine .ite (fun hu => ?isIn) fun _ => .ite (fun hu => ?between) fun _ =>
            .ite (fun hu => ?like) fun _ => .done hc
          all_goals
            refine h.pass hc hne fun c' hc' => ?_
            refine h.pass hc' (ne_of_eq_of_ne hu nofun) fun c'' hc'' => ?_
          case isIn =>
            exact .same (walkMembership_mirrors n left true (hn.behind hshorter) hc'')
              fun _ _ => ⟨_, rfl, rfl⟩
          case between =>
            exact .same (walkBetween_mirrors n left true (hn.behind hshorter) hc'')
              fun _ _ => ⟨_, rfl, rfl⟩
          case like =>
            exact .bind (walkAt_mirrors n .concat (hn.behind hshorter) hc'')
              fun right rest _ c₃ hc₃ _ => .done hc₃

theorem walkMembership_mirrors : ∀ (n : ℕ) (left : Expr) (negated : Bool) {ts : List Token} {k : ℕ}
    {c : Cursor}, Enough ts 0 n → Stands tokens limit k ts c →
      Mirrors tokens limit k (walkMembership tokens mode n left negated) c
        (readMembership (mode.nesting k) left negated ts)
  | 0, _, _, _, _, _, hn, _ => absurd hn (Nat.not_lt_zero _)
  | n + 1, left, negated, ts, k, c, hn, hc => by
    unfold walkMembership readMembership
    split
    · next hs => exact h.skip_none hc hs (h.refuse hc)
    · next rest hrest hs =>
      refine h.skip_some rfl hc hs fun c' hc' => ?_
      split
      · next hs' => exact h.skip_some rfl hc' hs' fun c'' hc'' => .done hc''
      · next hs' =>
        refine h.skip_none hc' hs' ?_
        exact .bind (walkItems_mirrors n (hn.behind hrest) hc') fun items rest' _ c'' hc'' _ =>
          .done hc''

theorem walkItems_mirrors : ∀ (n : ℕ) {ts : List Token} {k : ℕ} {c : Cursor},
    Enough ts 10 n → Stands tokens limit k ts c →
      Mirrors tokens limit k (walkItems tokens mode n) c (readItems (mode.nesting k) ts)
  | 0, _, _, _, hn, _ => absurd hn (Nat.not_lt_zero _)
  | n + 1, ts, k, c, hn, hc => by
    unfold walkItems readItems
    refine .bind (walkAt_mirrors n .or hn.on hc) fun e rest hrest c' hc' _ => ?_
    simp only
    split
    · next rest' hrest' hs =>
      refine h.skip_some rfl hc' hs fun c'' hc'' => ?_
      exact .bind (walkItems_mirrors n (hn.behind (hrest'.trans hrest)) hc'')
        fun items rest'' _ c₃ hc₃ _ => .done hc₃
    · next hs =>
      refine h.skip_none hc' hs ?_
      split
      · next hs' => exact h.skip_some rfl hc' hs' fun c'' hc'' => .done hc''
      · next hs' => exact h.skip_none hc' hs' (h.refuse hc')

theorem walkBetween_mirrors : ∀ (n : ℕ) (operand : Expr) (negated : Bool) {ts : List Token} {k : ℕ}
    {c : Cursor}, Enough ts 6 n → Stands tokens limit k ts c →
      Mirrors tokens limit k (walkBetween tokens mode n operand negated) c
        (readBetween (mode.nesting k) operand negated ts)
  | 0, _, _, _, _, _, hn, _ => absurd hn (Nat.not_lt_zero _)
  | n + 1, operand, negated, ts, k, c, hn, hc => by
    unfold walkBetween readBetween
    refine .bind (walkAt_mirrors n .concat hn.on hc) fun low rest hrest c' hc' _ => ?_
    simp only
    split
    · next hs => exact h.skip_none hc' hs (h.refuse hc')
    · next rest' hrest' hs =>
      refine h.skip_some rfl hc' hs fun c'' hc'' => ?_
      exact .bind (walkAt_mirrors n .concat (hn.behind (hrest'.trans hrest)) hc'')
        fun high rest'' _ c₃ hc₃ _ => .done hc₃

theorem walkPrimary_mirrors : ∀ (n : ℕ) {ts : List Token} {k : ℕ} {c : Cursor},
    Enough ts 0 n → Stands tokens limit k ts c →
      Mirrors tokens limit k (walkPrimary tokens mode n) c (readPrimary (mode.nesting k) ts)
  | 0, _, _, _, hn, _ => absurd hn (Nat.not_lt_zero _)
  | n + 1, [], _, c, _, hc => absurd rfl (h.ne_nil hc)
  | n + 1, t :: ts, k, c, hn, hc => by
    unfold walkPrimary readPrimary
    refine .current hc ?_
    cases hconstant : constant? t with
    | some value => exact h.pass hc (ne_eof_of_constant? hconstant) fun c' hc' => .done hc'
    | none =>
      refine .ite (fun ht => ?number) fun _ => .ite (fun ht => ?case) fun _ =>
        .ite (fun ht => ?paren) fun _ => .ite (fun ht => ?name) fun _ =>
        .ite (fun _ => h.refuse hc) fun _ => h.refuse hc
      all_goals
        have hne : t.kind ≠ .eof := ne_of_eq_of_ne ht nofun
        refine h.pass hc hne fun c' hc' => ?_
      case number =>
        cases numberLiteral? t.text with
        | some value => exact .done hc'
        | none => exact .refused rfl hc'.counter
      case case =>
        cases hinner : (mode.nesting k).enter? with
        | none => exact enclosed_refused hc' hinner
        | some inner =>
          obtain ⟨-, rfl⟩ := Mode.opens_of_enter? hinner
          refine .same (enclosed_opened hc' hinner fun c'' hc'' => ?_) fun _ _ => ⟨_, rfl, rfl⟩
          exact walkCase_mirrors n hn.tail hc''
      case paren =>
        refine .bind (walkAt_mirrors n .or hn.tail hc') fun e rest _ c'' hc'' _ => ?_
        exact .bind (h.expect rfl hc'') fun _ rest' _ c₃ hc₃ _ => .done hc₃
      case name =>
        split
        · next rest hrest hs =>
          refine h.skip_some rfl hc' hs fun c'' hc'' => ?_
          exact .bind (walkArguments_mirrors n (hn.behind (Remainder.lt_cons_of_lt hrest)) hc'')
            fun args rest' _ c₃ hc₃ _ => .done hc₃
        · next hs =>
          refine h.skip_none hc' hs ?_
          exact .bind (segments_mirrors h t.text hn.length_lt hc')
            fun name rest' _ c'' hc'' _ => .done hc''

theorem walkArguments_mirrors : ∀ (n : ℕ) {ts : List Token} {k : ℕ} {c : Cursor},
    Enough ts 11 n → Stands tokens limit k ts c →
      Mirrors tokens limit k (walkArguments tokens mode n) c (readArguments (mode.nesting k) ts)
  | 0, _, _, _, hn, _ => absurd hn (Nat.not_lt_zero _)
  | n + 1, ts, k, c, hn, hc => by
    unfold walkArguments readArguments
    split
    · next rest hrest hs =>
      refine h.skip_some rfl hc hs fun c' hc' => ?_
      exact .bind (h.expect rfl hc') fun _ rest' _ c'' hc'' _ => .done hc''
    · next hs =>
      refine h.skip_none hc hs ?_
      split
      · next hs' => exact h.skip_some rfl hc hs' fun c' hc' => .done hc'
      · next hs' => exact h.skip_none hc hs' (walkArgumentList_mirrors n hn.on hc)

theorem walkArgumentList_mirrors : ∀ (n : ℕ) {ts : List Token} {k : ℕ} {c : Cursor},
    Enough ts 10 n → Stands tokens limit k ts c →
      Mirrors tokens limit k (walkArgumentList tokens mode n) c
        (readArgumentList (mode.nesting k) ts)
  | 0, _, _, _, hn, _ => absurd hn (Nat.not_lt_zero _)
  | n + 1, ts, k, c, hn, hc => by
    unfold walkArgumentList readArgumentList
    refine .bind (walkAt_mirrors n .or hn.on hc) fun e rest hrest c' hc' _ => ?_
    simp only
    split
    · next rest' hrest' hs =>
      refine h.skip_some rfl hc' hs fun c'' hc'' => ?_
      exact .bind (walkArgumentList_mirrors n (hn.behind (hrest'.trans hrest)) hc'')
        fun args rest'' _ c₃ hc₃ _ => .done hc₃
    · next hs =>
      refine h.skip_none hc' hs ?_
      exact .bind (h.expect rfl hc') fun _ rest' _ c'' hc'' _ => .done hc''

theorem walkCase_mirrors : ∀ (n : ℕ) {ts : List Token} {k : ℕ} {c : Cursor},
    Enough ts 12 n → Stands tokens limit k ts c →
      Mirrors tokens limit k (walkCase tokens mode n) c (readCase (mode.nesting k) ts)
  | 0, _, _, _, hn, _ => absurd hn (Nat.not_lt_zero _)
  | n + 1, ts, k, c, hn, hc => by
    unfold walkCase readCase
    refine h.first hc (.ite (fun _ => ?_) fun _ => ?_)
    · exact .same (walkCaseBody_mirrors n none hn.on hc) fun _ _ => ⟨_, rfl, rfl⟩
    · refine .bind (walkAt_mirrors n .or hn.on.fewer hc) fun operand rest hrest c' hc' _ => ?_
      exact .same (walkCaseBody_mirrors n (some operand) (hn.behind hrest) hc')
        fun _ _ => ⟨_, rfl, rfl⟩

theorem walkCaseBody_mirrors : ∀ (n : ℕ) (operand : Option Expr) {ts : List Token} {k : ℕ}
    {c : Cursor}, Enough ts 11 n → Stands tokens limit k ts c →
      Mirrors tokens limit k (walkCaseBody tokens mode n operand) c
        (readCaseBody (mode.nesting k) operand ts)
  | 0, _, _, _, _, hn, _ => absurd hn (Nat.not_lt_zero _)
  | n + 1, operand, ts, k, c, hn, hc => by
    unfold walkCaseBody readCaseBody
    refine .bind (walkBranches_mirrors n hn.on hc) fun branches rest hrest c' hc' _ => ?_
    refine .ite (fun _ => h.refuse hc') fun _ => ?_
    split
    · next rest' hrest' hs =>
      refine h.skip_some rfl hc' hs fun c'' hc'' => ?_
      refine .bind (walkAt_mirrors n .or (hn.behind (Nat.lt_of_lt_of_le hrest' hrest)) hc'')
        fun otherwise rest'' _ c₃ hc₃ _ => ?_
      exact .bind (h.expect rfl hc₃) fun _ rest₃ _ c₄ hc₄ _ => .done hc₄
    · next hs =>
      refine h.skip_none hc' hs ?_
      exact .bind (h.expect rfl hc') fun _ rest' _ c'' hc'' _ => .done hc''

theorem walkBranches_mirrors : ∀ (n : ℕ) {ts : List Token} {k : ℕ} {c : Cursor},
    Enough ts 10 n → Stands tokens limit k ts c →
      Mirrors tokens limit k (walkBranches tokens mode n) c (readBranches (mode.nesting k) ts)
  | 0, _, _, _, hn, _ => absurd hn (Nat.not_lt_zero _)
  | n + 1, ts, k, c, hn, hc => by
    unfold walkBranches readBranches
    split
    · next hs => exact h.skip_none hc hs (.done hc)
    · next rest hrest hs =>
      refine h.skip_some rfl hc hs fun c' hc' => ?_
      refine .bind (walkAt_mirrors n .or (hn.behind hrest) hc')
        fun condition rest₁ hrest₁ c₁ hc₁ _ => ?_
      refine .bind (h.expect rfl hc₁) fun _ rest₂ hrest₂ c₂ hc₂ _ => ?_
      have hrest₂' := (hrest₂.trans hrest₁).trans hrest
      refine .bind (walkAt_mirrors n .or (hn.behind hrest₂') hc₂)
        fun result rest₃ hrest₃ c₃ hc₃ _ => ?_
      exact .bind (walkBranches_mirrors n (hn.behind (hrest₃.trans hrest₂')) hc₃)
        fun branches rest₄ _ c₄ hc₄ _ => .done hc₄

end

end

/-! ## Progress -/

/-- **The walk over an expression ends and makes progress.**  Whatever the text, the mode, the level
    and the cursor, the walk takes at most so many calls inside one another.  It has the result of
    the reader from there on, and as many CASE expressions are open afterwards as before.  If it has
    read a tree, the cursor moved, but not past the end of the text, and every integer of the tree
    has a negative. -/
theorem walkAt_progress {text : String} {tokens : List Token} (h : tokenize text = .ok tokens)
    (mode : Mode) (level : Level) (c : Cursor) {n : ℕ} (hn : 13 * tokens.length + 10 ≤ n) :
    ∃ result c', (walkAt tokens mode n level).outcome c = some (result, c') ∧
      c'.openCases = c.openCases ∧
      result = (readAt (mode.nesting c.openCases) level (left tokens c.position)).map Prod.fst ∧
      ∀ e, result = .ok e →
        c.position < c'.position ∧ c'.position ≤ tokens.findIdx (·.kind = .eof) ∧
        ∀ n, .literal (.integer n) ∈ e.subterms → |n.toInt| ≤ Word.greatest := by
  have htext := isText_of_tokenize h
  have hwalk : Walkable tokens (max c.position (tokens.length - 1)) :=
    { htext with length_le := by omega }
  have hc : Stands tokens (max c.position (tokens.length - 1)) c.openCases
      (left tokens c.position) c := ⟨rfl, Nat.le_max_left _ _, rfl⟩
  have henough : Enough (left tokens c.position) (level.height + 1) n := by
    have hlength := length_left tokens c.position
    have hheight := level.height_lt
    unfold Enough
    omega
  have hmirrors := walkAt_mirrors hwalk mode n level henough hc
  cases hread : readAt (mode.nesting c.openCases) level (left tokens c.position) with
  | error e =>
    rw [hread] at hmirrors
    cases hmirrors with
    | refused hw hc' => exact ⟨_, _, hw, hc', rfl, nofun⟩
  | ok read =>
    rw [hread] at hmirrors
    cases hmirrors with
    | @read e rest c' hw hc' =>
      refine ⟨_, c', hw, hc'.counter, rfl, ?_⟩
      rintro _ ⟨⟩
      have hshorter := rest.2
      have hwithin := hc'.within
      rw [← hc'.left, length_left, length_left] at hshorter
      refine ⟨by omega, by rw [htext.findIdx_eof]; omega, fun n hn => ?_⟩
      have hleast : Word.least < n.toInt :=
        readAt_bounded htext (left_subset tokens c.position) hread _ hn
      have hbounds := Word.toInt_bounds n
      simp only [Word.least, Word.greatest] at *
      rw [abs_le]
      omega

/-- A CASE and a folded sign, read up to the end of the text. -/
theorem walkAt_progress_case :
    let tokens : List Token := [⟨.case_, "CASE", 0⟩, ⟨.when_, "WHEN", 5⟩, ⟨.identifier, "a", 10⟩,
      ⟨.then_, "THEN", 12⟩, ⟨.minus, "-", 17⟩, ⟨.number, "5", 18⟩, ⟨.end_, "END", 20⟩,
      ⟨.eof, "", 23⟩]
    tokenize "CASE WHEN a THEN -5 END" = .ok tokens ∧ 13 * tokens.length + 10 ≤ 114 ∧
      ∃ c', (walkAt tokens .restricted 114 .or).outcome ⟨0, 0⟩ =
          some (.ok (.cases none [(.column "a", .literal (.integer (-5)))] none), c') ∧
        c'.openCases = 0 ∧ 0 < c'.position ∧ c'.position ≤ 7 := by
  intro tokens
  have htokens : tokenize "CASE WHEN a THEN -5 END" = .ok tokens := by decide +kernel
  have hcalls : 13 * tokens.length + 10 ≤ 114 := Nat.le_refl 114
  have hfive : numberLiteral? "5" = some (.integer 5) := by decide +kernel
  have hread : (readAt .one .or tokens).map Prod.fst =
      .ok (.cases none [(.column "a", .literal (.integer (-5)))] none) := by
    simp [tokens, readAt, readChain, readComparison, readPrimary, readCase, readCaseBody,
      readBranches, readSegments, CaseNesting.enter?, firstKind, first, skip?, expect, constant?,
      hfive, negated, Level.operator?, comparisonOf?, bind, Except.bind, pure, Except.pure,
      Except.map]
  obtain ⟨result, c', houtcome, hcounter, hresult, hprogress⟩ :=
    walkAt_progress htokens .restricted .or ⟨0, 0⟩ hcalls
  obtain rfl := hresult.trans hread
  obtain ⟨hmoved, hend, -⟩ := hprogress _ rfl
  exact ⟨htokens, hcalls, c', houtcome, hcounter, hmoved, hend⟩

-- A walk that is refused closes the CASE, too.
example : (walkAt [⟨.case_, "CASE", 0⟩, ⟨.eof, "", 4⟩] .restricted 36 .or).outcome ⟨0, 0⟩ =
    some (.error (.parse .endOfExpression (some 4)), ⟨1, 0⟩) := by cbv

end Expr

end StreamSql
