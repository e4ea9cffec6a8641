/-
  NULL passes through operators.

  Arithmetic, `||`, comparisons, LIKE, BETWEEN, the signs and NOT give NULL exactly if an operand
  is NULL: NULL is looked for before types, divisors and patterns are, and values that are not NULL
  never give it.

  * `BinaryOp.isStrict`, `UnaryOp.isStrict`: the operators that NULL passes through;
  * `Value.binary_eq_null_iff`, `unary_eq_null_iff`, `between_eq_null_iff`: one operator;
  * `Expr.IsStrict`, `Expr.leaves`: the trees of these operators, and their columns and constants;
  * `Expr.IsStrict.eq_null_iff`: a tree that does not fail gives NULL exactly if a leaf is NULL.
-/
import StreamSql.Expr.Eval

namespace StreamSql

/-- The operators that look at both operands and say nothing of NULL: all but AND, OR and IN. -/
def BinaryOp.isStrict : BinaryOp → Bool
  | and | or | isIn | notIn => false
  | _ => true

/-- The operators that say nothing of NULL: all but IS NULL and IS NOT NULL. -/
def UnaryOp.isStrict : UnaryOp → Bool
  | isNull | isNotNull => false
  | _ => true

/-! ## One operator -/

theorem Number.toValue_ne_null (n : Number) : n.toValue ≠ .null := by
  cases n <;> nofun

namespace Value

variable {a b c v : Value}

/-- What is found for values that are not NULL, and is not NULL itself, decides about NULL. -/
theorem eq_null_iff_of_ite {condition : Bool} {result : Except QueryError Value}
    (h : (if condition then .ok null else result) = .ok v)
    (hresult : condition = false → result = .ok v → v ≠ null) :
    v = null ↔ condition = true := by
  cases condition with
  | true => simpa using (Except.ok.inj h).symm
  | false => simpa using hresult rfl h

theorem arith_eq_null_iff {op : ArithOp} (h : arith op a b = .ok v) :
    v = null ↔ a = null ∨ b = null := by
  rw [← isNull_iff (v := a), ← isNull_iff (v := b), ← Bool.or_eq_true]
  refine eq_null_iff_of_ite h fun _ h => ?_
  split at h
  · cases h
    exact Number.toValue_ne_null _
  · cases h

theorem divide_eq_null_iff (h : divide a b = .ok v) : v = null ↔ a = null ∨ b = null := by
  rw [← isNull_iff (v := a), ← isNull_iff (v := b), ← Bool.or_eq_true]
  refine eq_null_iff_of_ite h fun _ h => ?_
  obtain ⟨m, -, h⟩ := bind_eq_ok.1 h
  obtain ⟨n, -, h⟩ := bind_eq_ok.1 h
  split at h
  · cases h
  · cases h
    nofun

theorem modulo_eq_null_iff (h : modulo a b = .ok v) : v = null ↔ a = null ∨ b = null := by
  rw [← isNull_iff (v := a), ← isNull_iff (v := b), ← Bool.or_eq_true]
  refine eq_null_iff_of_ite h fun _ h => ?_
  obtain ⟨m, -, h⟩ := bind_eq_ok.1 h
  obtain ⟨n, -, h⟩ := bind_eq_ok.1 h
  obtain ⟨r, -, h⟩ := bind_eq_ok.1 h
  cases h
  exact Number.toValue_ne_null r

theorem ordered_ne_null {test : Ordering → Bool} (h : ordered test a b = .ok v) : v ≠ null := by
  obtain ⟨o, -, h⟩ := bind_eq_ok.1 h
  cases h
  nofun

theorem likeValue_ne_null {negated : Bool} (h : likeValue negated a b = .ok v) : v ≠ null := by
  unfold likeValue likeThrough at h
  split at h
  · split at h
    · cases h
      nofun
    · cases h
  · cases h

/-- **Operators with two operands** give NULL exactly if one of these is NULL. -/
theorem binary_eq_null_iff {op : BinaryOp} (hop : op.isStrict = true)
    (h : a.binary op b = .ok v) : v = null ↔ a = null ∨ b = null := by
  have hstrict : (if a.isNull || b.isNull then .ok null else strict op a b) = .ok v →
      (strict op a b = .ok v → v ≠ null) → (v = null ↔ a = null ∨ b = null) := fun h hne => by
    rw [← isNull_iff (v := a), ← isNull_iff (v := b), ← Bool.or_eq_true]
    exact eq_null_iff_of_ite h fun _ => hne
  cases op with
  | add | subtract | multiply => exact arith_eq_null_iff h
  | divide => exact divide_eq_null_iff h
  | modulo => exact modulo_eq_null_iff h
  | concat | equal | notEqual =>
    refine hstrict h fun h => ?_
    cases h
    nofun
  | lessThan | lessOrEqual | greaterThan | greaterOrEqual => exact hstrict h ordered_ne_null
  | like | notLike => exact hstrict h likeValue_ne_null
  | and | or | isIn | notIn => cases hop

theorem negate_eq_null_iff (h : a.negate = .ok v) : v = null ↔ a = null := by
  rw [← isNull_iff (v := a)]
  refine eq_null_iff_of_ite h fun _ h => ?_
  obtain ⟨n, -, h⟩ := bind_eq_ok.1 h
  cases h
  exact Number.toValue_ne_null _

/-- **Operators with one operand** give NULL exactly if it is NULL. -/
theorem unary_eq_null_iff {op : UnaryOp} (hop : op.isStrict = true) (h : a.unary op = .ok v) :
    v = null ↔ a = null := by
  cases op with
  | minus => exact negate_eq_null_iff h
  | plus =>
    rw [← isNull_iff (v := a)]
    refine eq_null_iff_of_ite h fun _ h => ?_
    obtain ⟨n, -, h⟩ := bind_eq_ok.1 h
    cases h
    exact Number.toValue_ne_null n
  | not =>
    obtain ⟨b, hb, h⟩ := bind_eq_ok.1 h
    cases h
    -- the truth is unknown for NULL only
    cases a <;> cases hb <;> simp [ofTruth]
  | isNull | isNotNull => cases hop

/-- **BETWEEN** gives NULL exactly if one of its operands is NULL. -/
theorem between_eq_null_iff {negated : Bool} (h : a.between negated b c = .ok v) :
    v = null ↔ a = null ∨ b = null ∨ c = null := by
  rw [← isNull_iff (v := a), ← isNull_iff (v := b), ← isNull_iff (v := c), ← Bool.or_eq_true,
    ← Bool.or_eq_true, ← Bool.or_assoc]
  refine eq_null_iff_of_ite h fun _ h => ?_
  obtain ⟨low, -, h⟩ := bind_eq_ok.1 h
  split at h
  · cases h
    nofun
  · obtain ⟨high, -, h⟩ := bind_eq_ok.1 h
    cases h
    nofun

end Value

/-! ## Trees -/

namespace Expr

/-- A column or a constant. -/
def isLeaf : Expr → Bool
  | .column _ | .literal _ => true
  | _ => false

/-- The columns and constants of a tree. -/
def leaves (e : Expr) : List Expr :=
  e.subterms.filter isLeaf

/-- The trees of columns and constants under operators that NULL passes through. -/
inductive IsStrict : Expr → Prop
  | column (name : String) : IsStrict (.column name)
  | literal (value : Literal) : IsStrict (.literal value)
  | binary {op : BinaryOp} {left right : Expr} : op.isStrict = true →
      IsStrict left → IsStrict right → IsStrict (.binary op left right)
  | unary {op : UnaryOp} {operand : Expr} : op.isStrict = true →
      IsStrict operand → IsStrict (.unary op operand)
  | between {operand low high : Expr} (negated : Bool) :
      IsStrict operand → IsStrict low → IsStrict high →
      IsStrict (.between negated operand low high)

/-- Some leaf of the tree has the value NULL. -/
def HasNull (s : Scope) (e : Expr) : Prop :=
  ∃ leaf ∈ e.leaves, leaf.eval s = .ok .null

section
variable {s : Scope} {l r e low high : Expr} {v : Value}

theorem hasNull_leaf (h : e.leaves = [e]) (hv : e.eval s = .ok v) : HasNull s e ↔ v = .null := by
  simp [HasNull, h, hv]

theorem hasNull_binary {op : BinaryOp} :
    HasNull s (.binary op l r) ↔ HasNull s l ∨ HasNull s r := by
  simp [HasNull, leaves, subterms, isLeaf, or_and_right, exists_or]

theorem hasNull_unary {op : UnaryOp} : HasNull s (.unary op e) ↔ HasNull s e := by
  simp [HasNull, leaves, subterms, isLeaf]

theorem hasNull_between {negated : Bool} :
    HasNull s (.between negated e low high) ↔ HasNull s e ∨ HasNull s low ∨ HasNull s high := by
  simp [HasNull, leaves, subterms, isLeaf, or_and_right, exists_or]

/-- An operator that NULL passes through evaluates both operands. -/
theorem eval_strict {op : BinaryOp} (hop : op.isStrict = true) :
    (binary op l r).eval s = l.eval s >>= fun a => r.eval s >>= a.binary op := by
  rw [eval]
  all_goals
    intro h
    subst h
    cases hop

/-- A tree that has a value has the value NULL exactly if a leaf has. -/
theorem IsStrict.eq_null_iff (he : e.IsStrict) (h : e.eval s = .ok v) :
    v = .null ↔ HasNull s e := by
  induction he generalizing v with
  | column name => exact (hasNull_leaf rfl h).symm
  | literal value => exact (hasNull_leaf rfl h).symm
  | binary hop _ _ ihl ihr =>
    rw [eval_strict hop] at h
    obtain ⟨a, ha, h⟩ := bind_eq_ok.1 h
    obtain ⟨b, hb, h⟩ := bind_eq_ok.1 h
    rw [Value.binary_eq_null_iff hop h, ihl ha, ihr hb, hasNull_binary]
  | unary hop _ ih =>
    rw [eval] at h
    obtain ⟨a, ha, h⟩ := bind_eq_ok.1 h
    rw [Value.unary_eq_null_iff hop h, ih ha, hasNull_unary]
  | between negated _ _ _ ihe ihl ihh =>
    rw [eval] at h
    obtain ⟨a, ha, h⟩ := bind_eq_ok.1 h
    obtain ⟨b, hb, h⟩ := bind_eq_ok.1 h
    obtain ⟨c, hc, h⟩ := bind_eq_ok.1 h
    rw [Value.between_eq_null_iff h, ihe ha, ihl hb, ihh hc, hasNull_between]

end

/-- **NULL passes through operators**: a tree of them with a leaf that is NULL has the value NULL
    or fails, and no other tree of them has the value NULL. -/
theorem eval_null_of_leaf (s : Scope) {e : Expr} (he : e.IsStrict) :
    ((∃ leaf ∈ e.leaves, leaf.eval s = .ok .null) →
      e.eval s = .ok .null ∨ ∃ error, e.eval s = .error error) ∧
    (e.eval s = .ok .null → ∃ leaf ∈ e.leaves, leaf.eval s = .ok .null) := by
  refine ⟨fun hleaf => ?_, fun h => (he.eq_null_iff h).1 rfl⟩
  cases h : e.eval s with
  | ok v => exact Or.inl (congrArg _ ((he.eq_null_iff h).2 hleaf))
  | error error => exact Or.inr ⟨error, rfl⟩

/-- Behind NULL neither the divisor, which is zero, nor the pattern, which is no text, is looked
    at.  A bound that fails comes before the other one, which is NULL. -/
theorem eval_null_of_leaf_guards :
    let a := column "a"
    let zero := literal (.integer 0)
    let s : Scope := { record := ⟨[("a", .null)]⟩, registry := {} }
    (unary .not (binary .like (binary .modulo a zero) zero)).eval s = .ok .null ∧
      ∃ error, (between true zero (binary .divide zero zero) a).eval s = .error error := by
  intro a zero s
  have ha : a.eval s = .ok .null := by with_unfolding_all rfl
  have hlike : IsStrict (unary .not (binary .like (binary .modulo a zero) zero)) :=
    .unary rfl (.binary rfl (.binary rfl (.column _) (.literal _)) (.literal _))
  have hbetween : IsStrict (between true zero (binary .divide zero zero) a) :=
    .between _ (.literal _) (.binary rfl (.literal _) (.literal _)) (.column _)
  constructor
  · refine ((eval_null_of_leaf s hlike).1 ⟨a, List.mem_cons_self, ha⟩).resolve_right ?_
    rintro ⟨error, h⟩
    cases h.symm.trans (by with_unfolding_all rfl : _ = .ok .null)
  · have hmem : a ∈ leaves (between true zero (binary .divide zero zero) a) := by
      simp [leaves, subterms, isLeaf, a]
    refine ((eval_null_of_leaf s hbetween).1 ⟨a, hmem, ha⟩).resolve_left ?_
    intro h
    cases h.symm.trans (by with_unfolding_all rfl : _ = .error (.execution .divisionByZero))

end Expr

end StreamSql
