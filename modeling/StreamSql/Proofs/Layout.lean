/-
  The layout of the text of an expression.

  A tree with operands is a head and its operands, each with the mark behind it.

  * `Mark`, `Head`: what stands behind an operand, and in front of the first one; no mark is the
    beginning of another one (`Mark.eq_or_of_isPrefixOf`);
  * `Shaped v e l`: the tree has the layout, and its operands are trees of the grammar; every
    tree of the grammar is a leaf or has a layout (`layout_induction`);
  * `Shaped.chars_eq`: the text is that of the layout;
  * `assemble`: the tree of a layout.
-/
import StreamSql.Plan
import StreamSql.Proofs.Words

namespace StreamSql

namespace Expr

/-! ## Heads and marks -/

/-- What stands behind an operand. -/
inductive Mark where
  /-- an operator; behind IN the parenthesis of the list, behind BETWEEN the AND -/
  | operator (op : BinaryOp)
  | between (negated : Bool)
  /-- IS NULL and IS NOT NULL -/
  | nullTest (negated : Bool)
  /-- IN with an empty list -/
  | noItems (negated : Bool)
  | comma
  | close
  | branch
  | result
  | otherwise
  | stop
  deriving DecidableEq

namespace Mark

/-- The text of a mark. -/
def text : Mark → String
  | .operator .isIn => " IN ("
  | .operator .notIn => " NOT IN ("
  | .operator op => " " ++ op.symbol ++ " "
  | .between negated => if negated then " NOT BETWEEN " else " BETWEEN "
  | .nullTest negated => if negated then " IS NOT NULL)" else " IS NULL)"
  | .noItems negated => if negated then " NOT IN ())" else " IN ())"
  | .comma => ", "
  | .close => ")"
  | .branch => " WHEN "
  | .result => " THEN "
  | .otherwise => " ELSE "
  | .stop => " END"

/-- No operand follows. -/
def isLast : Mark → Bool
  | .nullTest _ | .noItems _ | .close | .stop => true
  | _ => false

/-- All marks. -/
def all : List Mark :=
  [BinaryOp.add, .subtract, .multiply, .divide, .modulo, .equal, .notEqual, .lessThan,
    .lessOrEqual, .greaterThan, .greaterOrEqual, .and, .or, .like, .notLike, .concat, .isIn,
    .notIn].map .operator ++
  [.between false, .between true, .nullTest false, .nullTest true, .noItems false, .noItems true,
    .comma, .close, .branch, .result, .otherwise, .stop]

theorem mem_all (m : Mark) : m ∈ all := by
  cases m with
  | operator op => cases op <;> decide
  | between negated => cases negated <;> decide
  | nullTest negated => cases negated <;> decide
  | noItems negated => cases negated <;> decide
  | _ => decide

/-- A mark that begins another one is followed by an operand, and the other one by none. -/
theorem eq_or_of_isPrefixOf : ∀ m ∈ all, ∀ m' ∈ all, m.text.toList.isPrefixOf m'.text.toList →
    m = m' ∨ m.isLast = false ∧ (m'.text.toList.drop m.text.toList.length).head? = some ')' := by
  decide +kernel

end Mark

/-- What stands in front of the first operand. -/
inductive Head where
  | paren
  | not
  | minus
  | call (name : String)
  /-- a CASE with an operand -/
  | subject
  /-- a CASE without one -/
  | search
  deriving DecidableEq

/-- The text of a head. -/
def Head.text : Head → String
  | .paren => "("
  | .not => "(NOT "
  | .minus => "(-"
  | .call name => name ++ "("
  | .subject => "CASE "
  | .search => "CASE WHEN "

/-- An operand and the mark behind it. -/
abbrev Step := Expr × Mark

/-- A head and the operands with the marks behind them. -/
structure Layout where
  head : Head
  steps : List Step

/-- The text of the operands with the marks behind them. -/
def stepsText : List Step → List Char
  | [] => []
  | (e, m) :: rest => e.chars ++ (m.text.toList ++ stepsText rest)

/-- What closes the text behind the last mark: the list of IN has its own parentheses. -/
def closing : List Step → List Char
  | (_, .operator op) :: _ => if op = .isIn ∨ op = .notIn then [')'] else []
  | _ => []

/-! ## Steps -/

/-- The items of a list or the arguments of a call. -/
def itemSteps : List Expr → List Step
  | [] => []
  | [e] => [(e, .close)]
  | e :: rest => (e, .comma) :: itemSteps rest

/-- The mark behind the result of a branch. -/
def behindResult : List (Expr × Expr) → Option Expr → Mark
  | [], none => .stop
  | [], some _ => .otherwise
  | _ :: _, _ => .branch

/-- The operands of a CASE from the first condition on. -/
def branchSteps (otherwise : Option Expr) : List (Expr × Expr) → List Step
  | [] => otherwise.toList.map fun e => (e, .stop)
  | (condition, result) :: rest =>
    (condition, .result) :: (result, behindResult rest otherwise) :: branchSteps otherwise rest

/-- The last mark, and no other one, is last. -/
inductive Trail : List Step → Prop
  | last {e : Expr} {m : Mark} : m.isLast = true → Trail [(e, m)]
  | cons {e : Expr} {m : Mark} {rest : List Step} : m.isLast = false → Trail rest →
      Trail ((e, m) :: rest)

theorem trail_itemSteps : ∀ (e : Expr) (rest : List Expr), Trail (itemSteps (e :: rest))
  | _, [] => .last rfl
  | _, e :: rest => .cons rfl (trail_itemSteps e rest)

theorem trail_branchSteps (otherwise : Option Expr) :
    ∀ (b : Expr × Expr) (rest : List (Expr × Expr)), Trail (branchSteps otherwise (b :: rest))
  | _, [] => by
    refine .cons rfl ?_
    cases otherwise with
    | none => exact .last rfl
    | some e => exact .cons rfl (.last rfl)
  | _, b :: rest => .cons rfl (.cons rfl (trail_branchSteps otherwise b rest))

theorem map_itemSteps (items : List Expr) : (itemSteps items).map Prod.fst = items := by
  fun_induction itemSteps items with
  | case1 => rfl
  | case2 => rfl
  | case3 e rest hne ih => rw [List.map_cons, ih]

theorem forall_itemSteps {P : Expr → Prop} {items : List Expr} (h : ∀ e ∈ items, P e) :
    ∀ s ∈ itemSteps items, P s.1 := by
  intro s hs
  have hmem : s.1 ∈ (itemSteps items).map Prod.fst := List.mem_map_of_mem hs
  rw [map_itemSteps] at hmem
  exact h _ hmem

theorem forall_branchSteps {P : Expr → Prop} {otherwise : Option Expr}
    {branches : List (Expr × Expr)} (hc : ∀ b ∈ branches, P b.1) (hr : ∀ b ∈ branches, P b.2)
    (ho : ∀ e ∈ otherwise, P e) : ∀ s ∈ branchSteps otherwise branches, P s.1 := by
  induction branches with
  | nil =>
    intro s hs
    obtain ⟨e, he, rfl⟩ := List.mem_map.1 hs
    exact ho e (Option.mem_toList.1 he)
  | cons b rest ih =>
    refine List.forall_mem_cons.2 ⟨hc b List.mem_cons_self,
      List.forall_mem_cons.2 ⟨hr b List.mem_cons_self, ?_⟩⟩
    exact ih (fun a ha => hc a (List.mem_cons_of_mem _ ha))
      fun a ha => hr a (List.mem_cons_of_mem _ ha)

/-! ## The layout of a tree -/

variable {v : Vocabulary}

/-- The tree has the layout, and its operands are trees of the grammar. -/
inductive Shaped (v : Vocabulary) : Expr → Layout → Prop
  | not {e : Expr} : Grammatical v e → Shaped v (.unary .not e) ⟨.not, [(e, .close)]⟩
  | minus {e : Expr} : e.isNumber = false → Grammatical v e →
      Shaped v (.unary .minus e) ⟨.minus, [(e, .close)]⟩
  | isNull {e : Expr} : Grammatical v e →
      Shaped v (.unary .isNull e) ⟨.paren, [(e, .nullTest false)]⟩
  | isNotNull {e : Expr} : Grammatical v e →
      Shaped v (.unary .isNotNull e) ⟨.paren, [(e, .nullTest true)]⟩
  | binary {op : BinaryOp} {left right : Expr} : op ≠ .isIn → op ≠ .notIn →
      Grammatical v left → Grammatical v right →
      Shaped v (.binary op left right) ⟨.paren, [(left, .operator op), (right, .close)]⟩
  | noItems {negated : Bool} {left : Expr} : Grammatical v left →
      Shaped v (.binary (membership negated) left (.list []))
        ⟨.paren, [(left, .noItems negated)]⟩
  | membership {negated : Bool} {left e : Expr} {rest : List Expr} : Grammatical v left →
      (∀ a ∈ e :: rest, Grammatical v a) →
      Shaped v (.binary (membership negated) left (.list (e :: rest)))
        ⟨.paren, (left, .operator (membership negated)) :: itemSteps (e :: rest)⟩
  | between {negated : Bool} {e low high : Expr} : Grammatical v e → Grammatical v low →
      Grammatical v high → Shaped v (.between negated e low high)
        ⟨.paren, [(e, .between negated), (low, .operator .and), (high, .close)]⟩
  | call {name : String} {e : Expr} {rest : List Expr} : (∀ a ∈ e :: rest, Grammatical v a) →
      Shaped v (.call name (e :: rest)) ⟨.call name, itemSteps (e :: rest)⟩
  | subject {e : Expr} {b : Expr × Expr} {rest : List (Expr × Expr)} {otherwise : Option Expr} :
      Grammatical v e → (∀ c ∈ b :: rest, Grammatical v c.1) →
      (∀ c ∈ b :: rest, Grammatical v c.2) → (∀ a ∈ otherwise, Grammatical v a) →
      Shaped v (.cases (some e) (b :: rest) otherwise)
        ⟨.subject, (e, .branch) :: branchSteps otherwise (b :: rest)⟩
  | search {b : Expr × Expr} {rest : List (Expr × Expr)} {otherwise : Option Expr} :
      (∀ c ∈ b :: rest, Grammatical v c.1) → (∀ c ∈ b :: rest, Grammatical v c.2) →
      (∀ a ∈ otherwise, Grammatical v a) → Shaped v (.cases none (b :: rest) otherwise)
        ⟨.search, branchSteps otherwise (b :: rest)⟩

/-- A tree without operands. -/
inductive Leaf : Expr → Prop
  | column {name : String} : Leaf (.column name)
  | literal {value : Literal} : Leaf (.literal value)
  | call {name : String} : Leaf (.call name [])

/-- What holds of the leaves, and of a tree whenever it holds of its operands, holds of every
    tree of the grammar. -/
theorem layout_induction {P : Expr → Prop} (leaf : ∀ {e}, Grammatical v e → Leaf e → P e)
    (step : ∀ {e l}, Grammatical v e → Shaped v e l → (∀ s ∈ l.steps, P s.1) → P e) {e : Expr}
    (he : Grammatical v e) : P e := by
  induction he with
  | column h => exact leaf (.column h) .column
  | literal h => exact leaf (.literal h) .literal
  | @binary op left right h₁ h₂ hl hr ihl ihr =>
    refine step (.binary h₁ h₂ hl hr) (.binary h₁ h₂ hl hr) ?_
    exact List.forall_mem_cons.2 ⟨ihl, List.forall_mem_singleton.2 ihr⟩
  | @membership negated left items hl hi ihl ihi =>
    cases items with
    | nil => exact step (.membership hl hi) (.noItems hl) (List.forall_mem_singleton.2 ihl)
    | cons e rest =>
      refine step (.membership hl hi) (.membership hl hi) ?_
      exact List.forall_mem_cons.2 ⟨ihl, forall_itemSteps ihi⟩
  | @unary op operand h ho ih =>
    have hoperand := @List.forall_mem_singleton Step (fun s => P s.1)
    cases op with
    | not => exact step (.unary h ho) (.not ho) (hoperand.2 ih)
    | minus => exact step (.unary h ho) (.minus (h.2 rfl) ho) (hoperand.2 ih)
    | plus => exact absurd rfl h.1
    | isNull => exact step (.unary h ho) (.isNull ho) (hoperand.2 ih)
    | isNotNull => exact step (.unary h ho) (.isNotNull ho) (hoperand.2 ih)
  | @call name args hn ha ih =>
    cases args with
    | nil => exact leaf (.call hn ha) .call
    | cons e rest => exact step (.call hn ha) (.call ha) (forall_itemSteps ih)
  | @cases operand otherwise branches hne ho hc hr he iho ihc ihr ihe =>
    have hbranches := forall_branchSteps ihc ihr ihe
    obtain ⟨b, rest, rfl⟩ := List.exists_cons_of_ne_nil hne
    cases operand with
    | none => exact step (.cases hne ho hc hr he) (.search hc hr he) hbranches
    | some e =>
      refine step (.cases hne ho hc hr he) (.subject (ho e rfl) hc hr he) ?_
      exact List.forall_mem_cons.2 ⟨iho e rfl, hbranches⟩
  | @between negated operand low high h₁ h₂ h₃ ih₁ ih₂ ih₃ =>
    refine step (.between h₁ h₂ h₃) (.between h₁ h₂ h₃) ?_
    exact List.forall_mem_cons.2 ⟨ih₁, List.forall_mem_cons.2 ⟨ih₂, List.forall_mem_singleton.2 ih₃⟩⟩

theorem leaf_or_shaped {e : Expr} (he : Grammatical v e) : Leaf e ∨ ∃ l, Shaped v e l :=
  layout_induction (P := fun e => Leaf e ∨ ∃ l, Shaped v e l) (fun _ h => Or.inl h)
    (fun _ h _ => Or.inr ⟨_, h⟩) he

namespace Shaped

variable {e : Expr} {l : Layout}

theorem trail (h : Shaped v e l) : Trail l.steps := by
  cases h with
  | not | minus | isNull | isNotNull | noItems => exact .last rfl
  | binary => exact .cons rfl (.last rfl)
  | membership => exact .cons rfl (trail_itemSteps _ _)
  | between => exact .cons rfl (.cons rfl (.last rfl))
  | call => exact trail_itemSteps _ _
  | subject => exact .cons rfl (trail_branchSteps _ _ _)
  | search => exact trail_branchSteps _ _ _

/-- The operands are trees of the grammar. -/
theorem operands (h : Shaped v e l) : ∀ s ∈ l.steps, Grammatical v s.1 := by
  have hone := @List.forall_mem_singleton Step (fun s => Grammatical v s.1)
  cases h with
  | not h | isNull h | isNotNull h | noItems h => exact hone.2 h
  | minus _ h => exact hone.2 h
  | binary _ _ hl hr => exact List.forall_mem_cons.2 ⟨hl, hone.2 hr⟩
  | membership hl hi => exact List.forall_mem_cons.2 ⟨hl, forall_itemSteps hi⟩
  | between h₁ h₂ h₃ => exact List.forall_mem_cons.2 ⟨h₁, List.forall_mem_cons.2 ⟨h₂, hone.2 h₃⟩⟩
  | call ha => exact forall_itemSteps ha
  | subject he hc hr ho => exact List.forall_mem_cons.2 ⟨he, forall_branchSteps hc hr ho⟩
  | search hc hr ho => exact forall_branchSteps hc hr ho

end Shaped

/-! ## The text of a layout -/

theorem renderList_eq (items : List Expr) : renderList items = items.map render := by
  induction items with
  | nil => rfl
  | cons e rest ih => rw [renderList, ih, List.map_cons]

theorem stepsText_itemSteps : ∀ (e : Expr) (rest : List Expr),
    (", ".intercalate (renderList (e :: rest))).toList ++ [')'] = stepsText (itemSteps (e :: rest))
  | e, [] => by simp [renderList, itemSteps, stepsText, chars, Mark.text]
  | e, e' :: rest => by
    have ih := stepsText_itemSteps e' rest
    rw [renderList_eq, String.toList_intercalate] at ih ⊢
    have hsteps : stepsText (itemSteps (e :: e' :: rest)) =
        e.chars ++ (", ".toList ++ stepsText (itemSteps (e' :: rest))) := rfl
    rw [hsteps, ← ih, List.map_cons, List.map_cons, List.map_cons, List.map_cons,
      List.intercalate_cons_cons]
    simp [chars]

theorem stepsText_branchSteps (otherwise : Option Expr) :
    ∀ branches : List (Expr × Expr), branches ≠ [] →
      " WHEN ".toList ++ stepsText (branchSteps otherwise branches) =
        (renderBranches branches ++ renderOption " ELSE " otherwise ++ " END").toList
  | [(condition, result)], _ => by
    cases otherwise with
    | none =>
      simp [branchSteps, behindResult, stepsText, renderBranches, renderOption, chars, Mark.text]
    | some e =>
      simp [branchSteps, behindResult, stepsText, renderBranches, renderOption, chars, Mark.text]
  | (condition, result) :: b :: rest, _ => by
    have ih := stepsText_branchSteps otherwise (b :: rest) (List.cons_ne_nil _ _)
    rw [branchSteps, stepsText, stepsText, renderBranches]
    simp only [String.toList_append, behindResult, Mark.text, List.append_assoc, chars] at ih ⊢
    rw [ih]

theorem closing_itemSteps (e : Expr) (rest : List Expr) : closing (itemSteps (e :: rest)) = [] := by
  cases rest <;> rfl

/-- **The text of a tree** is that of its layout. -/
theorem Shaped.chars_eq {e : Expr} {l : Layout} (h : Shaped v e l) :
    e.chars = l.head.text.toList ++ (stepsText l.steps ++ closing l.steps) := by
  cases h with
  | not | minus | isNull | isNotNull =>
    simp [chars, render, renderUnary, stepsText, closing, Head.text, Mark.text]
  | binary h₁ h₂ => simp [chars, render, stepsText, closing, Head.text, Mark.text, h₁, h₂]
  | @noItems negated =>
    cases negated
    all_goals
      simp [chars, render, renderList, stepsText, closing, Head.text, Mark.text,
        Expr.membership, BinaryOp.symbol]
  | @membership negated =>
    rw [stepsText, List.append_assoc, List.append_assoc, ← stepsText_itemSteps]
    cases negated
    all_goals
      simp [chars, render, closing, Head.text, Mark.text, Expr.membership, BinaryOp.symbol]
  | @between negated =>
    cases negated
    all_goals
      simp [chars, render, stepsText, closing, Head.text, Mark.text, BinaryOp.symbol]
  | call =>
    rw [closing_itemSteps, ← stepsText_itemSteps]
    simp [chars, render, Head.text]
  | subject =>
    have hclosing : ∀ (a : Expr) (s : List Step), closing ((a, .branch) :: s) = [] := fun _ _ => rfl
    rw [stepsText, hclosing, List.append_nil, Mark.text,
      stepsText_branchSteps _ _ (List.cons_ne_nil _ _)]
    simp [chars, render, renderOption, Head.text]
  | @search b rest otherwise =>
    have hclosing : closing (branchSteps otherwise (b :: rest)) = [] := rfl
    have htext : Head.search.text.toList = "CASE".toList ++ " WHEN ".toList := rfl
    rw [hclosing, htext, List.append_nil, List.append_assoc,
      stepsText_branchSteps _ _ (List.cons_ne_nil _ _)]
    simp [chars, render, renderOption]

/-! ## The tree of a layout -/

/-- The branches of a CASE and its ELSE. -/
def assembleBranches : List Step → List (Expr × Expr) × Option Expr
  | (condition, _) :: (result, _) :: rest =>
    let (branches, otherwise) := assembleBranches rest
    ((condition, result) :: branches, otherwise)
  | [(e, _)] => ([], some e)
  | [] => ([], none)

/-- The tree of a head and its operands. -/
def assemble : Head → List Step → Option Expr
  | .not, (e, _) :: _ => some (.unary .not e)
  | .minus, (e, _) :: _ => some (.unary .minus e)
  | .paren, (e, .nullTest negated) :: _ =>
    some (.unary (if negated then .isNotNull else .isNull) e)
  | .paren, (e, .noItems negated) :: _ => some (.binary (membership negated) e (.list []))
  | .paren, (e, .operator op) :: rest =>
    if op = .isIn ∨ op = .notIn then some (.binary op e (.list (rest.map Prod.fst)))
    else rest.head?.map fun s => .binary op e s.1
  | .paren, (e, .between negated) :: (low, _) :: (high, _) :: _ =>
    some (.between negated e low high)
  | .call name, steps => some (.call name (steps.map Prod.fst))
  | .subject, (e, _) :: steps =>
    some (.cases (some e) (assembleBranches steps).1 (assembleBranches steps).2)
  | .search, steps => some (.cases none (assembleBranches steps).1 (assembleBranches steps).2)
  | _, _ => none

theorem assembleBranches_branchSteps (otherwise : Option Expr) (branches : List (Expr × Expr)) :
    assembleBranches (branchSteps otherwise branches) = (branches, otherwise) := by
  induction branches with
  | nil => cases otherwise <;> rfl
  | cons b rest ih => rw [branchSteps, assembleBranches, ih]

/-- The head and the operands make the tree again. -/
theorem Shaped.assemble_eq {e : Expr} {l : Layout} (h : Shaped v e l) :
    assemble l.head l.steps = some e := by
  cases h with
  | not | minus | isNull | isNotNull | between => rfl
  | binary h₁ h₂ => simp [assemble, h₁, h₂]
  | @noItems negated => cases negated <;> rfl
  | @membership negated => cases negated <;> simp [assemble, Expr.membership, map_itemSteps]
  | call => simp [assemble, map_itemSteps]
  | subject | search => simp [assemble, assembleBranches_branchSteps]

end Expr

end StreamSql
