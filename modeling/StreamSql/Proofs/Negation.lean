/-
  Negation of conditions.

  * `Expr.IsComparison`, `Expr.IsCondition`: the conditions are the comparisons of arbitrary
    operands, closed under NOT, AND and OR;
  * `Expr.complement`: a comparison with the operator that says the opposite;
  * `Expr.nnf`: the normal form of a condition; NOT is pushed down to the comparisons and
    changes their operators there (`IsNormal`: nothing but comparisons under AND and OR);
  * `Opposed x y`: two evaluations are both unknown, or decide opposite ways, or fail alike;
  * `opposed_connect`: De Morgan's laws for evaluations;
  * `IsCondition.eval_nnf_not`: the normal form of a negation has its values and failures.

  The operands of comparisons are not looked into: a NOT inside of them stays where it is.
-/
import StreamSql.Expr.Eval

namespace StreamSql

/-! ## Opposed evaluations -/

/-- The evaluations are both unknown, or decide opposite ways, or fail alike. -/
inductive Opposed : Except QueryError Value → Except QueryError Value → Prop
  | unknown : Opposed (.ok .null) (.ok .null)
  | decided (b : Bool) : Opposed (.ok (.boolean b)) (.ok (.boolean !b))
  | failed (e : QueryError) : Opposed (.error e) (.error e)

namespace Opposed

variable {x y : Except QueryError Value}

theorem symm (h : Opposed x y) : Opposed y x := by
  cases h with
  | unknown => exact .unknown
  | decided b => simpa using Opposed.decided !b
  | failed e => exact .failed e

/-- Evaluations that go on in opposed ways are opposed. -/
theorem bind {f g : Value → Except QueryError Value} (h : ∀ v, Opposed (f v) (g v)) :
    Opposed (x >>= f) (x >>= g) := by
  cases x with
  | error e => exact .failed e
  | ok v => exact h v

/-- NOT gives the opposite. -/
theorem not_eq (h : Opposed x y) : x >>= Value.unary .not = y := by
  cases h <;> rfl

theorem isTruth (h : Opposed x y) {v : Value} (hv : x = .ok v) :
    v = .null ∨ ∃ b, v = .boolean b := by
  subst hv
  cases h with
  | unknown => exact Or.inl rfl
  | decided b => exact Or.inr ⟨b, rfl⟩

end Opposed

namespace Value

/-! ## AND and OR -/

/-- The evaluation of AND (`decisive = false`) and of OR (`decisive = true`), given the
    evaluations of both sides. -/
def connect (symbol : String) (decisive : Bool) (x y : Except QueryError Value) :
    Except QueryError Value := do
  let a ← (← x).truth symbol
  if a = some decisive then return .boolean decisive
  return .ofTruth (connective decisive a (← (← y).truth symbol))

theorem connect_decided (symbol : String) (decisive : Bool) (y : Except QueryError Value) :
    connect symbol decisive (.ok (.boolean decisive)) y = .ok (.boolean decisive) := by
  simp [connect, truth, bind, Except.bind, pure, Except.pure]

/-- If the left side does not decide, the right side does. -/
theorem connect_undecided (symbol : String) (decisive : Bool) {y y' : Except QueryError Value}
    (hy : Opposed y y') : connect symbol decisive (.ok (.boolean !decisive)) y = y := by
  cases hy with
  | unknown => cases decisive <;> rfl
  | decided c => cases decisive <;> cases c <;> rfl
  | failed e => cases decisive <;> rfl

/-- If the left side is unknown, the right side decides or nothing does. -/
theorem connect_unknown (symbol : String) (decisive c : Bool) :
    connect symbol decisive (.ok .null) (.ok (.boolean c)) =
      .ok (if c = decisive then .boolean decisive else .null) := by
  cases decisive <;> cases c <;> rfl

/-- **De Morgan's laws** with three values and failures: AND of two evaluations is opposed to
    OR of the opposite ones, and the right side is skipped by both or by neither. -/
theorem opposed_connect (symbol symbol' : String) (decisive : Bool)
    {x x' y y' : Except QueryError Value} (hx : Opposed x x') (hy : Opposed y y') :
    Opposed (connect symbol decisive x y) (connect symbol' (!decisive) x' y') := by
  cases hx with
  | failed e => exact .failed e
  | decided b =>
    by_cases hb : b = decisive
    · subst hb
      rw [connect_decided, connect_decided]
      exact .decided b
    · obtain rfl : b = !decisive := Bool.eq_not.2 hb
      rw [connect_undecided symbol decisive hy, connect_undecided symbol' (!decisive) hy.symm]
      exact hy
  | unknown =>
    cases hy with
    | unknown => exact .unknown
    | failed e => exact .failed e
    | decided c =>
      rw [connect_unknown, connect_unknown]
      by_cases hc : c = decisive
      · subst hc
        simpa using Opposed.decided c
      · have hc' : (!c) ≠ !decisive := by simpa using hc
        rw [if_neg hc, if_neg hc']
        exact .unknown

end Value

/-! ## Complements -/

namespace BinaryOp

/-- The operators that compare two values. -/
def comparisons : List BinaryOp :=
  [equal, notEqual, lessThan, lessOrEqual, greaterThan, greaterOrEqual, like, notLike]

/-- The operator that says the opposite. -/
def opposite? : BinaryOp → Option BinaryOp
  | equal => some notEqual
  | notEqual => some equal
  | lessThan => some greaterOrEqual
  | greaterOrEqual => some lessThan
  | greaterThan => some lessOrEqual
  | lessOrEqual => some greaterThan
  | like => some notLike
  | notLike => some like
  | isIn => some notIn
  | notIn => some isIn
  | add | subtract | multiply | divide | modulo | and | or | concat => none

theorem forall_comparisons {P : BinaryOp → Prop} :
    (∀ op ∈ comparisons, P op) ↔ P equal ∧ P notEqual ∧ P lessThan ∧ P lessOrEqual ∧
      P greaterThan ∧ P greaterOrEqual ∧ P like ∧ P notLike := by
  simp [comparisons]

theorem exists_opposite :
    ∀ op ∈ comparisons, ∃ opposite ∈ comparisons, op.opposite? = some opposite := by
  decide

end BinaryOp

namespace Value

/-- A test and its opposite, on values that may have no order. -/
theorem opposed_ordered {test opposite : Ordering → Bool} (h : ∀ o, opposite o = !test o)
    (a b : Value) : Opposed (ordered test a b) (ordered opposite a b) := by
  unfold ordered
  cases a.compare b with
  | error e => exact .failed e
  | ok o =>
    simp only [bind, Except.bind, pure, Except.pure, h]
    exact .decided _

theorem opposed_likeValue (negated : Bool) (a b : Value) :
    Opposed (likeValue negated a b) (likeValue (!negated) a b) := by
  cases b with
  | text pattern =>
    unfold likeValue likeThrough
    simp only
    split
    · next program _ _ =>
      have hne : (Regex.engine.isMatch program a.render != !negated) =
          !(Regex.engine.isMatch program a.render != negated) := by
        cases negated <;> simp
      rw [hne]
      exact .decided _
    · exact .failed _
  | integer _ | float _ | boolean _ | null | array _ | map _ => exact .failed _

theorem binary_comparison (a b : Value) :
    ∀ op ∈ BinaryOp.comparisons,
      binary op a b = if a.isNull || b.isNull then .ok null else strict op a b :=
  BinaryOp.forall_comparisons.2 ⟨rfl, rfl, rfl, rfl, rfl, rfl, rfl, rfl⟩

/-- **An operator of comparison and its opposite**: they give NULL for the same operands, fail
    on the same ones, and decide opposite ways on all others. -/
theorem opposed_binary (a b : Value) :
    ∀ op ∈ BinaryOp.comparisons, ∀ opposite ∈ BinaryOp.comparisons,
      op.opposite? = some opposite → Opposed (binary op a b) (binary opposite a b) := by
  have hstrict : ∀ op ∈ BinaryOp.comparisons, ∀ opposite, op.opposite? = some opposite →
      Opposed (strict op a b) (strict opposite a b) := by
    rw [BinaryOp.forall_comparisons]
    refine ⟨?_, ?_, ?_, ?_, ?_, ?_, ?_, ?_⟩ <;> rintro _ ⟨⟩
    · exact .decided _
    · simpa [strict] using Opposed.decided !a.sqlEquals b
    · exact opposed_ordered (by decide) a b
    · exact opposed_ordered (by decide) a b
    · exact opposed_ordered (by decide) a b
    · exact opposed_ordered (by decide) a b
    · exact opposed_likeValue false a b
    · exact opposed_likeValue true a b
  intro op hop opposite hopposite h
  rw [binary_comparison a b op hop, binary_comparison a b opposite hopposite]
  by_cases hnull : (a.isNull || b.isNull) = true
  · simp only [hnull, if_true]
    exact .unknown
  · simp only [hnull]
    exact hstrict op hop opposite h

/-- A value is between two bounds or outside of them. -/
theorem opposed_between (negated : Bool) (v low high : Value) :
    Opposed (v.between negated low high) (v.between (!negated) low high) := by
  unfold between
  by_cases hnull : (v.isNull || low.isNull || high.isNull) = true
  · simp only [hnull, if_true]
    exact .unknown
  · simp only [hnull]
    cases v.compare low with
    | error e => exact .failed e
    | ok below =>
      by_cases hbelow : below = .lt
      · subst hbelow
        exact .decided negated
      · cases v.compare high with
        | error e =>
          simp only [bind, Except.bind, hbelow, if_false]
          exact .failed e
        | ok above =>
          have hne : ((above != .gt) != !negated) = !((above != .gt) != negated) := by
            cases negated <;> simp
          simp only [bind, Except.bind, pure, Except.pure, hbelow, if_false, hne]
          exact .decided _

end Value

namespace Expr

/-- IN and NOT IN meet the same items and NULLs of the list and stop at the same item. -/
theorem opposed_evalItems (s : Scope) (negated : Bool) (v : Value) (unknown : Bool)
    (items : List Expr) :
    Opposed (evalItems s negated v unknown items) (evalItems s (!negated) v unknown items) := by
  induction items generalizing unknown with
  | nil =>
    cases unknown with
    | true => exact .unknown
    | false => exact .decided negated
  | cons e rest ih =>
    simp only [evalItems]
    refine Opposed.bind fun candidate => ?_
    by_cases hnull : candidate.isNull = true
    · simp only [hnull, if_true]
      exact ih true
    · by_cases heq : v.sqlEquals candidate = true
      · simp only [hnull, heq, if_true]
        exact .decided _
      · simp only [hnull, heq]
        exact ih unknown

theorem opposed_evalMembership (s : Scope) (negated : Bool) (left : Except QueryError Value)
    (items : List Expr) :
    Opposed (evalMembership s negated left (.list items))
      (evalMembership s (!negated) left (.list items)) := by
  simp only [evalMembership]
  refine Opposed.bind fun v => ?_
  by_cases hnull : v.isNull = true
  · simp only [hnull, if_true]
    exact .unknown
  · simp only [hnull]
    exact opposed_evalItems s negated v false items

theorem eval_and (s : Scope) (c d : Expr) :
    (Expr.binary .and c d).eval s = Value.connect "AND" false (c.eval s) (d.eval s) := by
  rw [eval]
  rfl

theorem eval_or (s : Scope) (c d : Expr) :
    (Expr.binary .or c d).eval s = Value.connect "OR" true (c.eval s) (d.eval s) := by
  rw [eval]
  rfl

/-! ## Conditions -/

/-- A comparison of arbitrary operands. -/
inductive IsComparison : Expr → Prop
  | binary {op : BinaryOp} (hop : op ∈ BinaryOp.comparisons) (left right : Expr) :
      IsComparison (.binary op left right)
  | isIn (left : Expr) (items : List Expr) : IsComparison (.binary .isIn left (.list items))
  | notIn (left : Expr) (items : List Expr) : IsComparison (.binary .notIn left (.list items))
  | between (negated : Bool) (operand low high : Expr) :
      IsComparison (.between negated operand low high)
  | isNull (operand : Expr) : IsComparison (.unary .isNull operand)
  | isNotNull (operand : Expr) : IsComparison (.unary .isNotNull operand)

/-- A condition: a comparison, or conditions under NOT, AND and OR. -/
inductive IsCondition : Expr → Prop
  | comparison {c : Expr} : IsComparison c → IsCondition c
  | not {c : Expr} : IsCondition c → IsCondition (.unary .not c)
  | and {c d : Expr} : IsCondition c → IsCondition d → IsCondition (.binary .and c d)
  | or {c d : Expr} : IsCondition c → IsCondition d → IsCondition (.binary .or c d)

/-- A condition without NOT. -/
inductive IsNormal : Expr → Prop
  | comparison {c : Expr} : IsComparison c → IsNormal c
  | and {c d : Expr} : IsNormal c → IsNormal d → IsNormal (.binary .and c d)
  | or {c d : Expr} : IsNormal c → IsNormal d → IsNormal (.binary .or c d)

/-- The comparison that says the opposite; what is not a comparison is put under NOT. -/
def complement : Expr → Expr
  | .binary op left right =>
    match op.opposite? with
    | some opposite => .binary opposite left right
    | none => .unary .not (.binary op left right)
  | .between negated operand low high => .between (!negated) operand low high
  | .unary .isNull operand => .unary .isNotNull operand
  | .unary .isNotNull operand => .unary .isNull operand
  | e => .unary .not e

/-- The condition (`negated = false`) or its negation (`negated = true`), with every NOT
    pushed down to the comparisons. -/
def pushed (negated : Bool) : Expr → Expr
  | .unary .not c => pushed (!negated) c
  | .binary .and c d =>
    .binary (if negated then .or else .and) (pushed negated c) (pushed negated d)
  | .binary .or c d =>
    .binary (if negated then .and else .or) (pushed negated c) (pushed negated d)
  | c => if negated then c.complement else c

/-- The negation normal form. -/
def nnf (c : Expr) : Expr :=
  c.pushed false

/-- The operators of comparison evaluate both operands. -/
theorem eval_comparison (s : Scope) (left right : Expr) :
    ∀ op ∈ BinaryOp.comparisons,
      (Expr.binary op left right).eval s =
        left.eval s >>= fun a => right.eval s >>= fun b => a.binary op b := by
  rw [BinaryOp.forall_comparisons]
  refine ⟨?_, ?_, ?_, ?_, ?_, ?_, ?_, ?_⟩ <;> simp only [eval]

theorem pushed_comparison (negated : Bool) (left right : Expr) :
    ∀ op ∈ BinaryOp.comparisons,
      (Expr.binary op left right).pushed negated =
        if negated then complement (.binary op left right) else .binary op left right :=
  BinaryOp.forall_comparisons.2 ⟨rfl, rfl, rfl, rfl, rfl, rfl, rfl, rfl⟩

namespace IsComparison

variable {c : Expr}

theorem pushed_eq (h : IsComparison c) (negated : Bool) :
    c.pushed negated = if negated then c.complement else c := by
  cases h with
  | binary hop left right => exact pushed_comparison negated left right _ hop
  | isIn | notIn | between | isNull | isNotNull => rfl

theorem complement (h : IsComparison c) : IsComparison c.complement := by
  cases h with
  | @binary op hop left right =>
    obtain ⟨opposite, hmem, hopposite⟩ := BinaryOp.exists_opposite op hop
    simp only [Expr.complement, hopposite]
    exact .binary hmem left right
  | isIn left items => exact .notIn left items
  | notIn left items => exact .isIn left items
  | between negated operand low high => exact .between (!negated) operand low high
  | isNull operand => exact .isNotNull operand
  | isNotNull operand => exact .isNull operand

/-- **A comparison is opposed to its complement**, whatever the operands are. -/
theorem opposed (h : IsComparison c) (s : Scope) : Opposed (c.eval s) (c.complement.eval s) := by
  cases h with
  | @binary op hop left right =>
    obtain ⟨opposite, hmem, hopposite⟩ := BinaryOp.exists_opposite op hop
    simp only [Expr.complement, hopposite]
    rw [eval_comparison s left right op hop, eval_comparison s left right opposite hmem]
    exact Opposed.bind fun a => Opposed.bind fun b =>
      Value.opposed_binary a b op hop opposite hmem hopposite
  | isIn left items =>
    simp only [Expr.complement, BinaryOp.opposite?, eval]
    exact opposed_evalMembership s false (left.eval s) items
  | notIn left items =>
    simp only [Expr.complement, BinaryOp.opposite?, eval]
    exact opposed_evalMembership s true (left.eval s) items
  | between negated operand low high =>
    simp only [Expr.complement, eval]
    exact Opposed.bind fun v => Opposed.bind fun a => Opposed.bind fun b =>
      Value.opposed_between negated v a b
  | isNull operand =>
    simp only [Expr.complement, eval]
    exact Opposed.bind fun v => .decided v.isNull
  | isNotNull operand =>
    simp only [Expr.complement, eval]
    exact Opposed.bind fun v => (Opposed.decided v.isNull).symm

end IsComparison

namespace IsCondition

variable {c : Expr}

/-- **Pushing NOT down**, by induction on the condition: without a negation nothing changes,
    and with one the values are the opposite.  NOT needs the second half for the first one and
    the first for the second. -/
theorem eval_pushed (h : IsCondition c) (s : Scope) :
    (c.pushed false).eval s = c.eval s ∧ Opposed (c.eval s) ((c.pushed true).eval s) := by
  induction h with
  | @comparison c hc =>
    rw [hc.pushed_eq, hc.pushed_eq]
    exact ⟨rfl, hc.opposed s⟩
  | @not c hc ih =>
    obtain ⟨hsame, hopposed⟩ := ih
    have hnot : (Expr.unary .not c).eval s = (c.pushed true).eval s := by
      rw [eval]
      exact hopposed.not_eq
    simp only [pushed, Bool.not_false, Bool.not_true]
    rw [hnot, hsame]
    exact ⟨rfl, hopposed.symm⟩
  | @and c d hc hd ihc ihd =>
    simp only [pushed, eval_and, eval_or, if_true, Bool.false_eq_true, if_false]
    rw [ihc.1, ihd.1]
    exact ⟨rfl, Value.opposed_connect "AND" "OR" false ihc.2 ihd.2⟩
  | @or c d hc hd ihc ihd =>
    simp only [pushed, eval_and, eval_or, if_true, Bool.false_eq_true, if_false]
    rw [ihc.1, ihd.1]
    exact ⟨rfl, Value.opposed_connect "OR" "AND" true ihc.2 ihd.2⟩

theorem isNormal_pushed (h : IsCondition c) (negated : Bool) : IsNormal (c.pushed negated) := by
  induction h generalizing negated with
  | comparison hc =>
    rw [hc.pushed_eq]
    cases negated with
    | false => exact .comparison hc
    | true => exact .comparison hc.complement
  | not _ ih => exact ih (!negated)
  | and _ _ ihc ihd =>
    cases negated with
    | false => exact .and (ihc false) (ihd false)
    | true => exact .or (ihc true) (ihd true)
  | or _ _ ihc ihd =>
    cases negated with
    | false => exact .or (ihc false) (ihd false)
    | true => exact .and (ihc true) (ihd true)

/-- **Negation can be pushed inward**: the normal form of the negation of a condition has no NOT
    outside of operands; it has the value of the negation, which is a truth value or NULL, or
    fails like the negation does. -/
theorem eval_nnf_not (h : IsCondition c) (s : Scope) :
    IsNormal (nnf (.unary .not c)) ∧
      (nnf (.unary .not c)).eval s = (Expr.unary .not c).eval s ∧
      ∀ v, (Expr.unary .not c).eval s = .ok v → v = .null ∨ ∃ b, v = .boolean b := by
  have hnot : IsCondition (.unary .not c) := .not h
  obtain ⟨hsame, hopposed⟩ := hnot.eval_pushed s
  exact ⟨hnot.isNormal_pushed false, hsame, fun v hv => hopposed.isTruth hv⟩

/-- `NOT (a < 5 AND (b LIKE 'x%' OR NOT c IN (1, NULL)))` on a record on which the list leaves
    it unknown. -/
theorem eval_nnf_not_unknown :
    let a := Expr.column "a"
    let b := Expr.column "b"
    let member (op : BinaryOp) := Expr.binary op (.column "c")
      (.list [.literal (.integer 1), .literal .null])
    let c := Expr.binary .and (.binary .lessThan a (.literal (.integer 5)))
      (.binary .or (.binary .like b (.literal (.text "x%"))) (.unary .not (member .isIn)))
    let s : Scope :=
      { record := ⟨[("a", .integer 3), ("b", .text "abc"), ("c", .integer 2)]⟩, registry := {} }
    IsCondition c ∧
      nnf (.unary .not c) =
        .binary .or (.binary .greaterOrEqual a (.literal (.integer 5)))
          (.binary .and (.binary .notLike b (.literal (.text "x%"))) (member .isIn)) ∧
      (nnf (.unary .not c)).eval s = .ok .null := by
  intro a b member c s
  have hc : IsCondition c :=
    .and (.comparison (.binary (by decide) a _))
      (.or (.comparison (.binary (by decide) b _)) (.not (.comparison (.isIn _ _))))
  have hnull : ((Expr.unary .not c).eval s).toOption.map Value.isNull = some true := by
    decide +kernel
  obtain ⟨-, hsame, -⟩ := hc.eval_nnf_not s
  cases hnot : (Expr.unary .not c).eval s with
  | error e =>
    rw [hnot] at hnull
    cases hnull
  | ok v =>
    rw [hnot] at hnull
    obtain rfl : v = .null := Value.isNull_iff.1 (Option.some.inj hnull)
    exact ⟨hc, rfl, hsame.trans hnot⟩

end IsCondition

end Expr

end StreamSql
