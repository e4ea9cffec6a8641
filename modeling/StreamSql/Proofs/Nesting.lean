/-
  Limits on nested CASE expressions.

  A reader with a limit goes along with the reader that has none, token by token, until it meets
  a CASE that it may not open.  From there on it can only be that the tree of the other reader, if
  it reads one, is deeper than the limit permits.

  * `CaseNesting.Permits n d`: expressions of the depth `d` are within the limit `n`;
  * `Restricts n d depth x y`: how the result `x` with the limit `n` stands to the result `y`
    without one, for readers that go on behind expressions of the depth `d`;
  * `readAt_restricts`: so does every reader stand to itself without a limit;
  * `Compiled.ofText_agrees`: compiling a text is reading it without a limit.
-/
import Mathlib.Tactic.Common
import StreamSql.Expr.Compiled

namespace StreamSql

namespace Expr

open Token

/-! ## Depths within a limit -/

namespace CaseNesting

/-- CASE expressions may be nested to this depth. -/
def Permits : CaseNesting → Nat → Prop
  | .unlimited, _ => True
  | .one, depth => depth ≤ 1
  | .none, depth => depth ≤ 0

variable {n m : CaseNesting} {d d' : Nat}

theorem permits_zero (n : CaseNesting) : n.Permits 0 := by
  cases n <;> simp [Permits]

theorem Permits.mono (h : n.Permits d') (hd : d ≤ d') : n.Permits d := by
  cases n with
  | unlimited => trivial
  | one | none => exact Nat.le_trans hd h

theorem permits_max : n.Permits (max d d') ↔ n.Permits d ∧ n.Permits d' := by
  cases n with
  | unlimited => exact iff_of_true trivial ⟨trivial, trivial⟩
  | one | none => exact Nat.max_le

/-- Inside a CASE one level less is left. -/
theorem permits_succ_iff (h : n.enter? = some m) : n.Permits (d + 1) ↔ m.Permits d := by
  cases n <;> cases h <;> simp [Permits]

theorem not_permits_of_enter? (h : n.enter? = Option.none) (hd : 1 ≤ d) : ¬ n.Permits d := by
  cases n with
  | unlimited | one => cases h
  | none => exact Nat.not_le_of_lt hd

theorem ne_unlimited_of_enter? (h : n.enter? = some m) (hm : m ≠ .unlimited) :
    n ≠ .unlimited := by
  rintro rfl
  exact hm (Option.some.inj h).symm

end CaseNesting

/-! ## Results with and without a limit -/

section

variable {α β : Type}

/-- A result with the limit `n`, where the result without a limit is `y`. -/
inductive Agrees (n : CaseNesting) (depth : α → Nat) (y : Except QueryError α) :
    Except QueryError α → Prop
  | read {a : α} : y = .ok a → n.Permits (depth a) → Agrees n depth y (.ok a)
  | failed {e : QueryError} : y = .error e → (∀ position, e ≠ .nestedCase position) →
      Agrees n depth y (.error e)
  /-- a CASE may not be opened, and what is read without a limit is too deep -/
  | nested {position : Nat} : n ≠ .unlimited → (∀ a, y = .ok a → ¬ n.Permits (depth a)) →
      Agrees n depth y (.error (.nestedCase position))

/-- Behind expressions of the depth `d`, which is within the limit `n`, a reader with the limit has
    the result `x` and one without has `y`; what is read takes these expressions in. -/
structure Restricts (n : CaseNesting) (d : Nat) (depth : α → Nat) (x y : Except QueryError α) :
    Prop where
  deep : ∀ {a}, y = .ok a → d ≤ depth a
  agrees : n.Permits d → Agrees n depth y x

namespace Restricts

variable {n m : CaseNesting} {d : Nat} {depth : α → Nat} {depth' : β → Nat}
  {x y : Except QueryError α} {f g : α → Except QueryError β}

theorem done {a : α} (h : depth a = d) : Restricts n d depth (.ok a) (.ok a) where
  deep := by
    rintro _ ⟨⟩
    exact Nat.le_of_eq h.symm
  agrees hd := .read rfl (h ▸ hd)

theorem fault {e : QueryError} (he : ∀ position, e ≠ .nestedCase position) :
    Restricts n d depth (.error e) (.error e) where
  deep := nofun
  agrees _ := .failed rfl he

theorem refuse (ts : List Token) (fault : ParseFault) :
    Restricts n d depth (Token.refuse ts fault) (Token.refuse ts fault) :=
  .fault nofun

/-- Something is read, and the readers go on behind it. -/
theorem bind (h : Restricts n 0 depth x y)
    (hf : ∀ a, Restricts n (max d (depth a)) depth' (f a) (g a)) :
    Restricts n d depth' (x >>= f) (y >>= g) where
  deep hb := by
    obtain ⟨a, -, hb⟩ := bind_eq_ok.1 hb
    exact (Nat.max_le.1 ((hf a).deep hb)).1
  agrees hd := by
    cases h.agrees n.permits_zero with
    | @read a hy ha =>
      subst hy
      exact (hf a).agrees (CaseNesting.permits_max.2 ⟨hd, ha⟩)
    | failed hy he =>
      subst hy
      exact .failed rfl he
    | nested hn hdeep =>
      refine .nested hn fun b hb hpermits => ?_
      obtain ⟨a, hy, hb⟩ := bind_eq_ok.1 hb
      exact hdeep a hy (hpermits.mono (Nat.max_le.1 ((hf a).deep hb)).2)

/-- Something without a CASE is read, and the readers go on behind it. -/
theorem step {z : Except QueryError α} (hz : ∀ position, z ≠ .error (.nestedCase position))
    (hf : ∀ a, Restricts n d depth' (f a) (g a)) :
    Restricts n d depth' (z >>= f) (z >>= g) := by
  cases z with
  | ok a => exact hf a
  | error e => exact .fault fun position he => hz position (he ▸ rfl)

/-- What is read is given another form of the same depth. -/
theorem map (h : Restricts n d depth x y) (hf : ∀ a, ∃ b, f a = .ok b ∧ depth' b = depth a) :
    Restricts n d depth' (x >>= f) (y >>= f) where
  deep hb := by
    obtain ⟨a, hy, hb⟩ := bind_eq_ok.1 hb
    obtain ⟨b', hb', hdepth⟩ := hf a
    cases hb'.symm.trans hb
    exact hdepth ▸ h.deep hy
  agrees hd := by
    cases h.agrees hd with
    | @read a hy ha =>
      obtain ⟨b, hb, hdepth⟩ := hf a
      subst hy
      change Agrees n depth' (f a) (f a)
      rw [hb]
      exact .read rfl (hdepth ▸ ha)
    | failed hy he =>
      subst hy
      exact .failed rfl he
    | nested hn hdeep =>
      refine .nested hn fun b hb => ?_
      obtain ⟨a, hy, hb⟩ := bind_eq_ok.1 hb
      obtain ⟨b', hb', hdepth⟩ := hf a
      cases hb'.symm.trans hb
      exact hdepth ▸ hdeep a hy

/-- What is read inside a CASE is one level deeper outside. -/
theorem inside (hm : n.enter? = some m) (h : Restricts m 0 depth x y) :
    Restricts n 0 (fun a => depth a + 1) x y where
  deep _ := Nat.zero_le _
  agrees _ := by
    cases h.agrees m.permits_zero with
    | read hy ha => exact .read hy ((CaseNesting.permits_succ_iff hm).2 ha)
    | failed hy he => exact .failed hy he
    | nested hn hdeep =>
      exact .nested (CaseNesting.ne_unlimited_of_enter? hm hn) fun a hy ha =>
        hdeep a hy ((CaseNesting.permits_succ_iff hm).1 ha)

/-- The limit permits to open the CASE that is read. -/
theorem opened (hm : n.enter? = some m) (h : Restricts n 1 depth x y) :
    Restricts n 0 depth x y where
  deep _ := Nat.zero_le _
  agrees _ := h.agrees ((CaseNesting.permits_succ_iff hm).2 m.permits_zero)

/-- The limit does not permit to open the CASE that is read. -/
theorem closed (hn : n.enter? = none) {position : Nat} (h : Restricts .unlimited 1 depth x y) :
    Restricts n 0 depth (.error (.nestedCase position)) y where
  deep _ := Nat.zero_le _
  agrees _ := by
    refine .nested ?_ fun a hy => CaseNesting.not_permits_of_enter? hn (h.deep hy)
    rintro rfl
    cases hn

end Restricts

end

/-! ## Readers of single tokens -/

theorem expect_ne_nested (kind : TokenKind) (ts : List Token) (position : Nat) :
    expect kind ts ≠ .error (.nestedCase position) := by
  unfold expect
  split
  · split <;> nofun
  · nofun

theorem expectIdentifier_ne_nested (ts : List Token) (position : Nat) :
    expectIdentifier ts ≠ .error (.nestedCase position) := by
  unfold expectIdentifier
  split
  · split <;> nofun
  · nofun

theorem readSegments_restricts (n : CaseNesting) (name : String) (ts : List Token) :
    Restricts n 0 (fun _ => 0) (readSegments name ts) (readSegments name ts) := by
  unfold readSegments
  split
  · exact .done rfl
  · next rest _ _ =>
    refine .step (expectIdentifier_ne_nested rest) fun read => ?_
    obtain ⟨segment, rest', h⟩ := read
    exact .map (readSegments_restricts n (name ++ "." ++ segment) rest') fun _ => ⟨_, rfl, rfl⟩
termination_by ts.length

theorem caseDepth_negated (e : Expr) : e.negated.caseDepth = e.caseDepth := by
  unfold negated
  split <;> rfl

theorem readNullTest_restricts (n : CaseNesting) (operand : Expr) (ts : List Token) :
    Restricts n operand.caseDepth (·.1.caseDepth) (readNullTest operand ts)
      (readNullTest operand ts) := by
  unfold readNullTest
  split
  · split
    · exact .done rfl
    · exact .refuse _ _
  · split
    · exact .done rfl
    · exact .refuse _ _

/-! ## Readers of expressions -/

mutual

theorem readAt_restricts (n : CaseNesting) : ∀ (level : Level) (ts : List Token),
    Restricts n 0 (·.1.caseDepth) (readAt n level ts) (readAt .unlimited level ts)
  | .not, ts => by
    unfold readAt
    split
    · next rest _ _ => exact .map (readAt_restricts n .not rest) fun _ => ⟨_, rfl, rfl⟩
    · exact readAt_restricts n .comparison ts
  | .sign, ts => by
    unfold readAt
    split
    · next rest _ _ =>
      exact .map (readAt_restricts n .sign rest) fun _ => ⟨_, rfl, caseDepth_negated _⟩
    · split
      · next rest _ _ => exact .map (readAt_restricts n .sign rest) fun _ => ⟨_, rfl, rfl⟩
      · exact readAt_restricts n .primary ts
  | .primary, ts => by
    unfold readAt
    exact readPrimary_restricts n ts
  | .comparison, ts => by
    unfold readAt
    refine .bind (readAt_restricts n .concat ts) fun ⟨left, rest, h⟩ => ?_
    rw [Nat.zero_max]
    exact .map (readComparison_restricts n left rest) fun _ => ⟨_, rfl, rfl⟩
  | .or, ts | .and, ts | .concat, ts | .additive, ts | .multiplicative, ts => by
    unfold readAt
    refine .bind (readAt_restricts n _ ts) fun ⟨left, rest, h⟩ => ?_
    rw [Nat.zero_max]
    exact .map (readChain_restricts n _ left rest) fun _ => ⟨_, rfl, rfl⟩
termination_by level ts => (ts.length, level.height + 1)
decreasing_by
  all_goals simp [Prod.lex_def, Level.height]
  all_goals omega

theorem readChain_restricts (n : CaseNesting) (level : Level) : ∀ (left : Expr) (ts : List Token),
    Restricts n left.caseDepth (·.1.caseDepth) (readChain n level left ts)
      (readChain .unlimited level left ts)
  | left, [] => by
    unfold readChain
    exact .done rfl
  | left, t :: ts => by
    unfold readChain
    cases hop : level.operator? t.kind with
    | none =>
      simp only
      exact .done rfl
    | some op =>
      simp only
      refine .bind (readAt_restricts n level.next ts) fun ⟨right, rest, h⟩ => ?_
      exact .map (readChain_restricts n level (.binary op left right) rest) fun _ => ⟨_, rfl, rfl⟩
termination_by _ ts => (ts.length, 0)
decreasing_by
  all_goals simp only [List.length_cons, Prod.lex_def]; omega

theorem readComparison_restricts (n : CaseNesting) : ∀ (left : Expr) (ts : List Token),
    Restricts n left.caseDepth (·.1.caseDepth) (readComparison n left ts)
      (readComparison .unlimited left ts)
  | left, [] => by
    unfold readComparison
    exact .done rfl
  | left, t :: ts => by
    unfold readComparison
    cases hop : comparisonOf? t.kind with
    | some op =>
      simp only
      exact .bind (readAt_restricts n .concat ts) fun ⟨right, rest, h⟩ => .done rfl
    | none =>
      simp only
      split
      · exact .map (readNullTest_restricts n left ts) fun _ => ⟨_, rfl, rfl⟩
      · split
        · exact .map (readMembership_restricts n left false ts) fun _ => ⟨_, rfl, rfl⟩
        · split
          · exact .map (readBetween_restricts n left false ts) fun _ => ⟨_, rfl, rfl⟩
          · split
            · match ts with
              | [] => exact .done rfl
              | u :: us =>
                simp only
                split
                · exact .map (readMembership_restricts n left true us) fun _ => ⟨_, rfl, rfl⟩
                · split
                  · exact .map (readBetween_restricts n left true us) fun _ => ⟨_, rfl, rfl⟩
                  · split
                    · exact .bind (readAt_restricts n .concat us) fun ⟨right, rest, h⟩ => .done rfl
                    · exact .done rfl
            · exact .done rfl
termination_by _ ts => (ts.length, 0)
decreasing_by
  all_goals simp only [List.length_cons, Prod.lex_def]; omega

theorem readMembership_restricts (n : CaseNesting) (left : Expr) (negated : Bool)
    (ts : List Token) :
    Restricts n left.caseDepth (·.1.caseDepth) (readMembership n left negated ts)
      (readMembership .unlimited left negated ts) := by
  unfold readMembership
  split
  · exact .refuse _ _
  · next rest _ _ =>
    split
    · exact .done (Nat.max_zero _)
    · exact .bind (readItems_restricts n rest) fun ⟨items, rest', h⟩ => .done rfl
termination_by (ts.length, 0)

theorem readItems_restricts (n : CaseNesting) (ts : List Token) :
    Restricts n 0 (caseDepthOfList ·.1) (readItems n ts) (readItems .unlimited ts) := by
  unfold readItems
  refine .bind (readAt_restricts n .or ts) fun ⟨e, rest, h⟩ => ?_
  rw [Nat.zero_max]
  simp only
  split
  · next rest' _ _ =>
    exact .bind (readItems_restricts n rest') fun ⟨items, rest'', h''⟩ => .done rfl
  · split
    · exact .done (Nat.max_zero _)
    · exact .refuse _ _
termination_by (ts.length, 10)
decreasing_by
  all_goals simp [Prod.lex_def, Level.height]
  all_goals omega

theorem readBetween_restricts (n : CaseNesting) (operand : Expr) (negated : Bool)
    (ts : List Token) :
    Restricts n operand.caseDepth (·.1.caseDepth) (readBetween n operand negated ts)
      (readBetween .unlimited operand negated ts) := by
  unfold readBetween
  refine .bind (readAt_restricts n .concat ts) fun ⟨low, rest, h⟩ => ?_
  simp only
  split
  · exact .refuse _ _
  · next rest' _ _ =>
    exact .bind (readAt_restricts n .concat rest') fun ⟨high, rest'', h''⟩ => .done rfl
termination_by (ts.length, 10)
decreasing_by
  all_goals simp [Prod.lex_def, Level.height]
  all_goals omega

theorem readPrimary_restricts (n : CaseNesting) : ∀ ts : List Token,
    Restricts n 0 (·.1.caseDepth) (readPrimary n ts) (readPrimary .unlimited ts)
  | [] => by
    unfold readPrimary
    exact .refuse _ _
  | t :: ts => by
    unfold readPrimary
    simp only
    split
    · exact .done rfl
    · split
      · split
        · exact .done rfl
        · exact .refuse _ _
      · split
        · cases hn : n.enter? with
          | none =>
            exact .closed hn (.map (readCase_restricts .unlimited .unlimited rfl ts)
              fun _ => ⟨_, rfl, rfl⟩)
          | some m =>
            exact .opened hn (.map (readCase_restricts n m hn ts) fun _ => ⟨_, rfl, rfl⟩)
        · split
          · refine .bind (readAt_restricts n .or ts) fun ⟨e, rest, h⟩ => ?_
            exact .step (expect_ne_nested .rightParen rest) fun _ => .done (Nat.zero_max _).symm
          · split
            · split
              · next rest _ _ =>
                exact .map (readArguments_restricts n rest) fun _ => ⟨_, rfl, rfl⟩
              · exact .map (readSegments_restricts n t.text ts) fun _ => ⟨_, rfl, rfl⟩
            · split
              · exact .refuse _ _
              · exact .refuse _ _
termination_by ts => (ts.length, 0)
decreasing_by
  all_goals simp only [List.length_cons, Prod.lex_def]; omega

theorem readArguments_restricts (n : CaseNesting) (ts : List Token) :
    Restricts n 0 (caseDepthOfList ·.1) (readArguments n ts) (readArguments .unlimited ts) := by
  unfold readArguments
  split
  · next rest _ _ => exact .step (expect_ne_nested .rightParen rest) fun _ => .done rfl
  · split
    · exact .done rfl
    · exact readArgumentList_restricts n ts
termination_by (ts.length, 11)

theorem readArgumentList_restricts (n : CaseNesting) (ts : List Token) :
    Restricts n 0 (caseDepthOfList ·.1) (readArgumentList n ts)
      (readArgumentList .unlimited ts) := by
  unfold readArgumentList
  refine .bind (readAt_restricts n .or ts) fun ⟨e, rest, h⟩ => ?_
  rw [Nat.zero_max]
  simp only
  split
  · next rest' _ _ =>
    exact .bind (readArgumentList_restricts n rest') fun ⟨args, rest'', h''⟩ => .done rfl
  · exact .step (expect_ne_nested .rightParen rest) fun _ => .done (Nat.max_zero _)
termination_by (ts.length, 10)
decreasing_by
  all_goals simp [Prod.lex_def, Level.height]
  all_goals omega

/-- Behind the keyword the limit is that inside of the CASE, and the CASE itself counts. -/
theorem readCase_restricts (n m : CaseNesting) (hm : n.enter? = some m) (ts : List Token) :
    Restricts n 1 (·.1.caseDepth) (readCase m ts) (readCase .unlimited ts) := by
  unfold readCase
  split
  · exact .map (readCaseBody_restricts n m hm none ts) fun _ => ⟨_, rfl, rfl⟩
  · refine .bind (.inside hm (readAt_restricts m .or ts)) fun ⟨operand, rest, h⟩ => ?_
    rw [Nat.max_eq_right (Nat.le_add_left 1 _)]
    exact .map (readCaseBody_restricts n m hm (some operand) rest) fun _ => ⟨_, rfl, rfl⟩
termination_by (ts.length, 12)
decreasing_by
  all_goals simp [Prod.lex_def, Level.height]
  all_goals omega

theorem readCaseBody_restricts (n m : CaseNesting) (hm : n.enter? = some m)
    (operand : Option Expr) (ts : List Token) :
    Restricts n (caseDepthOfOption operand + 1) (·.1.caseDepth) (readCaseBody m operand ts)
      (readCaseBody .unlimited operand ts) := by
  unfold readCaseBody
  refine .bind (.inside hm (readBranches_restricts m ts)) fun ⟨branches, rest, h⟩ => ?_
  simp only [Nat.add_max_add_right]
  split
  · exact .refuse _ _
  · split
    · next rest' _ _ =>
      refine .bind (.inside hm (readAt_restricts m .or rest')) fun ⟨otherwise, rest'', h''⟩ => ?_
      rw [Nat.add_max_add_right]
      exact .step (expect_ne_nested .end_ rest'') fun _ => .done rfl
    · exact .step (expect_ne_nested .end_ rest) fun _ => .done (congrArg (· + 1) (Nat.max_zero _))
termination_by (ts.length, 11)
decreasing_by
  all_goals simp [Prod.lex_def, Level.height]
  all_goals omega

theorem readBranches_restricts (n : CaseNesting) (ts : List Token) :
    Restricts n 0 (caseDepthOfBranches ·.1) (readBranches n ts) (readBranches .unlimited ts) := by
  unfold readBranches
  split
  · exact .done rfl
  · next rest _ _ =>
    refine .bind (readAt_restricts n .or rest) fun ⟨condition, rest₁, h₁⟩ => ?_
    refine .step (expect_ne_nested .then_ rest₁) fun ⟨t, rest₂, h₂⟩ => ?_
    refine .bind (readAt_restricts n .or rest₂) fun ⟨result, rest₃, h₃⟩ => ?_
    refine .bind (readBranches_restricts n rest₃) fun ⟨branches, rest₄, h₄⟩ => .done ?_
    rw [Nat.zero_max]
    rfl
termination_by (ts.length, 10)
decreasing_by
  all_goals simp [Prod.lex_def, Level.height]
  all_goals omega

end

/-! ## Texts -/

theorem expectEnd_ne_nested (ts : List Token) (position : Nat) :
    expectEnd ts ≠ .error (.nestedCase position) := by
  unfold expectEnd
  split <;> nofun

theorem tokenizeFrom_ne_nested (start : Nat) (cs : List Char) (position : Nat) :
    tokenizeFrom start cs ≠ .error (.nestedCase position) := by
  fun_induction tokenizeFrom start cs <;> simp_all

/-- What a text spells with a limit, and what it spells without one. -/
theorem parse_restricts (n : CaseNesting) (text : String) :
    Restricts n 0 caseDepth (parse n text) (parse .unlimited text) := by
  refine .step (tokenizeFrom_ne_nested 0 text.toList) fun tokens => ?_
  refine .bind (readAt_restricts n .or tokens) fun ⟨e, rest, h⟩ => ?_
  exact .step (expectEnd_ne_nested rest) fun _ => .done (Nat.zero_max _).symm

theorem parse_unlimited_ne_nested (text : String) (position : Nat) :
    parse .unlimited text ≠ .error (.nestedCase position) := by
  intro h
  have hagrees := (parse_restricts .unlimited text).agrees trivial
  rw [h] at hagrees
  cases hagrees with
  | failed _ he => exact he position rfl
  | nested hn _ => exact hn rfl

end Expr

namespace Compiled

/-- A text is compiled to the tree that it spells without a limit; it is shown as it was written
    if that tree nests CASE. -/
theorem ofText_eq (text : String) :
    ofText text = (Expr.parse .unlimited text).map fun tree =>
      { ofExpr tree with text := if 1 < tree.caseDepth then text else tree.render } := by
  have hagrees := (Expr.parse_restricts .one text).agrees (Nat.zero_le 1)
  unfold ofText
  cases hone : Expr.parse .one text with
  | ok tree =>
    rw [hone] at hagrees
    cases hagrees with
    | read hy hdepth =>
      have hflat : ¬ 1 < tree.caseDepth := Nat.not_lt.2 hdepth
      simp [hy, Except.map, ofExpr, hflat]
  | error e =>
    rw [hone] at hagrees
    cases hagrees with
    | failed hy he =>
      rw [hy]
      cases e with
      | nestedCase position => exact absurd rfl (he position)
      | _ => rfl
    | nested _ hdeep =>
      cases hy : Expr.parse .unlimited text with
      | error e => rfl
      | ok tree =>
        have hnested : 1 < tree.caseDepth := Nat.lt_of_not_le (hdeep tree hy)
        simp [bind, Except.bind, pure, Except.pure, Except.map, ofExpr, hnested]

/-- **Compiling a text is reading it without a limit on nested CASE expressions.**  It succeeds on
    the same texts with the same tree and fails with the same errors, none of which is about nested
    CASE expressions.  The expression is delegated exactly if its tree nests CASE, as it is if it is
    compiled from the tree, and it has the values and the columns of that one. -/
theorem ofText_agrees (text : String) :
    (ofText text).map tree = Expr.parse .unlimited text ∧
    (ofText text).map delegated =
      (Expr.parse .unlimited text).map (fun e => decide (1 < e.caseDepth)) ∧
    (ofText text).map (fun c => (c.delegated, c.eval, c.holds, c.fields)) =
      (Expr.parse .unlimited text).map (fun e =>
        ((ofExpr e).delegated, (ofExpr e).eval, (ofExpr e).holds, (ofExpr e).fields)) ∧
    ∀ position, ofText text ≠ .error (.nestedCase position) := by
  rw [ofText_eq]
  have hnested := Expr.parse_unlimited_ne_nested text
  cases hparse : Expr.parse .unlimited text with
  | ok e => exact ⟨rfl, rfl, rfl, nofun⟩
  | error e =>
    refine ⟨rfl, rfl, rfl, fun position h => hnested position ?_⟩
    rw [hparse, Except.error.inj h]

end Compiled

end StreamSql
