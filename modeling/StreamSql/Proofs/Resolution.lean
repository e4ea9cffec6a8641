/-
  What an accepted query does not meet at runtime.

  A plan can be kept while more functions are registered.  The names that its query uses are
  found in every later registry, so no evaluation fails because a function, the result of an
  aggregate or the list of IN is not there.

  * `Resolves`: a step does not fail for such a reason;
  * `Registry.Extends`: more functions were registered;
  * `Resolved r n e`: all calls in the tree are for scalar functions of the registry, all slots
    are among the first `n`, and IN has its list;
  * `Resolved.eval_resolves`: such a tree can be evaluated in every later registry;
  * `Plan.resolved_of_build`: all trees of a plan are of this kind;
  * `Plan.eval_resolves`: so they never fail like this.
-/
import StreamSql.Proofs.Sharing

namespace StreamSql

open StreamSql.Expr

/-! ## Failures to resolve -/

/-- The failure is that a function, the result of an aggregate or the list of IN is missing, or
    that a function is called with a wrong number of arguments or in a wrong place. -/
def QueryError.isUnresolved : QueryError → Bool
  | .unknownFunction _ => true
  | .execution (.arity ..) => true
  | .execution (.aggregateOnRecord _) => true
  | .execution (.missingAggregate _) => true
  | .execution .listOutsideIn => true
  | .execution (.inWithoutList _) => true
  | _ => false

/-- The step does not fail because something is not resolved. -/
def Resolves {α : Type} (x : Except QueryError α) : Prop :=
  ∀ e, x = .error e → e.isUnresolved = false

namespace Resolves

variable {α β : Type}

@[simp]
theorem ok (a : α) : Resolves (.ok a : Except QueryError α) := fun _ h => nomatch h

@[simp]
theorem pure (a : α) : Resolves (Pure.pure a : Except QueryError α) := ok a

@[simp]
theorem error_iff {e : QueryError} :
    Resolves (.error e : Except QueryError α) ↔ e.isUnresolved = false := by
  constructor
  · intro h
    exact h e rfl
  · rintro h _ ⟨⟩
    exact h

@[simp]
theorem mismatch (expected : Expectation) (v : Value) :
    Resolves (v.mismatch expected : Except QueryError α) := error_iff.2 rfl

theorem bind {x : Except QueryError α} {f : α → Except QueryError β} (hx : Resolves x)
    (hf : ∀ a, x = .ok a → Resolves (f a)) : Resolves (x >>= f) := by
  cases x with
  | error e => exact error_iff.2 (hx e rfl)
  | ok a => exact hf a rfl

/-- A result passed on. -/
@[simp]
theorem map_iff {x : Except QueryError α} {f : α → β} : Resolves (f <$> x) ↔ Resolves x := by
  cases x <;> simp [Except.map_error, Except.map_ok]

end Resolves

/-! ## Operations on values -/

namespace Value

@[simp]
theorem resolves_toNumber (v : Value) : Resolves v.toNumber := by
  unfold toNumber
  split
  · simp
  · split
    · exact Resolves.error_iff.2 rfl
    · simp

@[simp]
theorem resolves_compare (a b : Value) : Resolves (a.compare b) := by
  have hnumeric : Resolves (a.compareNumeric b) := by
    unfold compareNumeric
    split
    · split
      · simp
      · exact Resolves.error_iff.2 rfl
    · simp
  unfold compare
  split
  · simp
  · simp
  · split
    · exact hnumeric
    · simp

@[simp]
theorem resolves_truth (v : Value) (symbol : String) : Resolves (v.truth symbol) := by
  unfold truth
  split <;> simp

@[simp]
theorem resolves_arith (op : ArithOp) (a b : Value) : Resolves (arith op a b) := by
  unfold arith
  split
  · simp
  · split
    · simp
    · exact Resolves.error_iff.2 rfl

@[simp]
theorem resolves_divide (a b : Value) : Resolves (a.divide b) := by
  unfold divide
  split
  · simp
  · refine Resolves.bind (by simp) fun m _ => Resolves.bind (by simp) fun n _ => ?_
    split
    · exact Resolves.error_iff.2 rfl
    · simp

theorem resolves_remainderOf (m n : Number) : Resolves (remainderOf m n) := by
  unfold remainderOf
  split
  · split
    · exact Resolves.error_iff.2 rfl
    · split <;> simp
  · split
    · exact Resolves.error_iff.2 rfl
    · simp

@[simp]
theorem resolves_modulo (a b : Value) : Resolves (a.modulo b) := by
  unfold modulo
  split
  · simp
  · refine Resolves.bind (by simp) fun m _ => Resolves.bind (by simp) fun n _ => ?_
    simp [resolves_remainderOf]

theorem resolves_negate (v : Value) : Resolves v.negate := by
  unfold negate
  split <;> simp

theorem resolves_likeValue (negated : Bool) (a b : Value) : Resolves (likeValue negated a b) := by
  unfold likeValue likeThrough
  split
  · split
    · simp
    · exact Resolves.error_iff.2 rfl
  · simp

theorem resolves_unary (op : UnaryOp) (v : Value) : Resolves (v.unary op) := by
  cases op with
  | isNull | isNotNull => exact .ok _
  | not => simp [unary]
  | minus => exact resolves_negate v
  | plus =>
    simp only [unary]
    split <;> simp

theorem resolves_strict (op : BinaryOp) (a b : Value) : Resolves (strict op a b) := by
  cases op
  case like | notLike => exact resolves_likeValue _ a b
  all_goals simp [strict, ordered]

theorem resolves_binary (op : BinaryOp) (a b : Value) : Resolves (a.binary op b) := by
  unfold binary
  split
  case h_6 =>
    split
    · simp
    · exact resolves_strict _ a b
  all_goals simp

theorem resolves_between (negated : Bool) (v low high : Value) :
    Resolves (between negated v low high) := by
  unfold between
  split
  · simp
  · refine Resolves.bind (by simp) fun order _ => ?_
    split <;> simp

end Value

/-! ## The functions of the catalog -/

namespace Scalar

@[simp]
theorem resolves_wrongCount (name : String) (args : List Value) :
    Resolves (wrongCount name args) := Resolves.error_iff.2 rfl

@[simp]
theorem resolves_numericArgument (name : String) (v : Value) :
    Resolves (numericArgument name v) := by
  unfold numericArgument
  split <;> simp

@[simp]
theorem resolves_textArgument (name : String) (v : Value) : Resolves (textArgument name v) := by
  unfold textArgument
  split <;> simp

@[simp]
theorem resolves_integerArgument (name : String) (v : Value) :
    Resolves (integerArgument name v) := by
  unfold integerArgument
  refine Resolves.bind (by simp) fun n _ => ?_
  split
  · simp
  · split <;> simp

theorem resolves_abs (args : List Value) : Resolves (abs args) := by
  unfold abs
  split <;> simp

theorem resolves_roundTo (v : Value) (places : Int64) : Resolves (roundTo v places) := by
  unfold roundTo
  split
  · simp
  · refine Resolves.bind (by simp) fun n _ => ?_
    split <;> simp

theorem resolves_round (args : List Value) : Resolves (round args) := by
  unfold round
  split
  · exact resolves_roundTo _ _
  · simp
  · exact Resolves.bind (by simp) fun n _ => resolves_roundTo _ n
  · simp

theorem resolves_integral (name : String) (pick : FloatParts → Int) (args : List Value) :
    Resolves (integral name pick args) := by
  unfold integral
  split
  · simp
  · refine Resolves.bind (by simp) fun n _ => ?_
    split <;> simp
  · simp

theorem resolves_sqrt (args : List Value) : Resolves (sqrt args) := by
  unfold sqrt
  split
  · simp
  · refine Resolves.bind (by simp) fun n _ => ?_
    simp only
    split
    · exact Resolves.error_iff.2 rfl
    · simp
  · simp

theorem resolves_power (args : List Value) : Resolves (power args) := by
  unfold power
  split
  · simp
  · simp
  · exact Resolves.bind (by simp) fun m _ => by simp
  · simp

theorem resolves_mod (args : List Value) : Resolves (mod args) := by
  unfold mod
  split <;> simp

theorem resolves_ofText (name : String) (f : String → String) (args : List Value) :
    Resolves (ofText name f args) := by
  unfold ofText
  split <;> simp

theorem resolves_length (args : List Value) : Resolves (length args) := by
  unfold length
  split <;> simp

theorem resolves_substring (args : List Value) : Resolves (substring args) := by
  unfold substring
  split
  · simp
  · split
    · exact Resolves.bind (by simp) fun s _ => by simp
    · exact Resolves.bind (by simp) fun s _ => Resolves.bind (by simp) fun n _ => by simp
    · simp

theorem resolves_replace (args : List Value) : Resolves (replace args) := by
  unfold replace
  split
  · split
    · simp
    · exact Resolves.bind (by simp) fun s _ => Resolves.bind (by simp) fun n _ => by simp
  · simp

theorem resolves_nullIf (args : List Value) : Resolves (nullIf args) := by
  unfold nullIf
  split <;> simp

theorem resolves_bestOf (keep : Ordering) (best : Option Value) (args : List Value) :
    Resolves (bestOf keep best args) := by
  induction args generalizing best with
  | nil => simp [bestOf]
  | cons v rest ih =>
    unfold bestOf
    split
    · exact ih best
    · split
      · exact ih _
      · refine Resolves.bind (by simp) fun order _ => ?_
        split <;> exact ih _

theorem resolves_toText (args : List Value) : Resolves (toText args) := by
  unfold toText
  split <;> simp

theorem resolves_toNumber (args : List Value) : Resolves (toNumber args) := by
  unfold toNumber
  split <;> simp

theorem resolves_now (time : Int64) (args : List Value) : Resolves (now time args) := by
  unfold now
  split <;> simp

end Scalar

namespace Registry

/-- No function of the registry fails because something is not resolved. -/
def FunctionsResolve (r : Registry) : Prop :=
  ∀ name f, r.scalar? name = some f → ∀ args, Resolves (f.run args)

/-- Every scalar function of the registry has the property. -/
def Each (P : (List Value → Except QueryError Value) → Prop) (r : Registry) : Prop :=
  ∀ name f, r.scalar? name = some f → P f.run

variable {P : (List Value → Except QueryError Value) → Prop}

/-- One function more. -/
theorem Each.insert {r : Registry} (h : r.Each P) (key : String) {f : ScalarFunction}
    (hf : P f.run) : Each P { r with scalars := r.scalars.insert key f } := by
  intro name g hg
  unfold scalar? at hg
  by_cases hk : key = Text.upper name
  · rw [← hk, Table.get?_insert_self] at hg
    obtain rfl := Option.some.inj hg
    exact hf
  · rw [Table.get?_insert_of_ne _ _ hk] at hg
    exact h name g hg

theorem Each.enter {r : Registry} (h : r.Each P) {d : Definition}
    (hd : ∀ run, d.behaviour = .scalar run → P run) : (r.enter d).Each P := by
  unfold Registry.enter
  generalize d.names = names
  induction names generalizing r with
  | nil => exact h
  | cons name rest ih =>
    rw [List.foldl_cons]
    refine ih ?_
    cases hb : d.behaviour with
    | scalar run => exact h.insert _ (hd run hb)
    | aggregate create => exact h

/-- The functions of the standard registry are those of the catalog. -/
theorem each_standard {time : Int64}
    (h : ∀ d ∈ Catalog.scalars time, ∀ run, d.behaviour = .scalar run → P run) :
    (standard time).Each P := by
  have hall : ∀ d ∈ Catalog.all time, ∀ run, d.behaviour = .scalar run → P run := by
    intro d hd run hrun
    rcases List.mem_append.1 hd with hd | hd
    · exact h d hd run hrun
    · have haggregate : ∀ d ∈ Catalog.aggregates, d.behaviour ≠ .scalar run := by
        simp [Catalog.aggregates, Catalog.aggregate]
      exact absurd hrun (haggregate d hd)
  have hempty : Each P {} := fun name f hf => nomatch hf
  unfold standard
  generalize Catalog.all time = definitions at hall
  generalize ({} : Registry) = r at hempty
  induction definitions generalizing r with
  | nil => exact hempty
  | cons d rest ih =>
    rw [List.foldl_cons]
    exact ih (fun d hd => hall d (List.mem_cons_of_mem _ hd)) _
      (hempty.enter (hall d List.mem_cons_self))

theorem FunctionsResolve.insert {r : Registry} (h : r.FunctionsResolve) (key : String)
    {f : ScalarFunction} (hf : ∀ args, Resolves (f.run args)) :
    FunctionsResolve { r with scalars := r.scalars.insert key f } :=
  Each.insert (P := fun run => ∀ args, Resolves (run args)) h key hf

/-- **The functions of the catalog** do not fail because something is not resolved. -/
theorem functionsResolve_standard (time : Int64) : (standard time).FunctionsResolve :=
  each_standard (P := fun run => ∀ args, Resolves (run args)) <| by
    simp [Catalog.scalars, Catalog.scalar, Scalar.resolves_abs, Scalar.resolves_round,
      Scalar.resolves_integral, Scalar.resolves_sqrt, Scalar.resolves_power, Scalar.resolves_mod,
      Scalar.resolves_ofText, Scalar.resolves_length, Scalar.concat, Scalar.resolves_substring,
      Scalar.resolves_replace, Scalar.coalesce, Scalar.resolves_nullIf, Scalar.greatest,
      Scalar.least, Scalar.resolves_bestOf, Scalar.resolves_toText, Scalar.resolves_toNumber,
      Scalar.resolves_now]

/-! ## Later registries -/

/-- The second registry is the first one after more functions were registered. -/
inductive Extends (r : Registry) : Registry → Prop
  | refl : Extends r r
  | scalar {s s' : Registry} {name : String} {f : ScalarFunction} : Extends r s →
      s.registerScalar name f = .ok s' → Extends r s'
  | aggregate {s s' : Registry} {name : String} {f : AggregateFunction} : Extends r s →
      s.registerAggregate name f = .ok s' → Extends r s'

/-- A function is still found when more of them are registered. -/
theorem Extends.scalar?_eq {r s : Registry} (h : r.Extends s) {name : String}
    {f : ScalarFunction} (hf : r.scalar? name = some f) : s.scalar? name = some f := by
  induction h with
  | refl => exact hf
  | @scalar s s' key g _ hregister ih =>
    obtain ⟨upper, hclaim, hregister⟩ := bind_eq_ok.1 hregister
    cases hregister
    unfold claimName at hclaim
    split at hclaim
    · cases hclaim
    · next hnew =>
      obtain rfl := Except.ok.inj hclaim
      -- the name of the function is taken, so it is another one
      have hne : Text.upper key ≠ Text.upper name := fun heq => hnew (by
        rw [contains, scalar?, heq, ← scalar?, ih]
        rfl)
      exact (Table.get?_insert_of_ne _ _ hne).trans ih
  | aggregate _ hregister ih =>
    obtain ⟨upper, -, hregister⟩ := bind_eq_ok.1 hregister
    cases hregister
    exact ih

/-- The name is that of a scalar function that takes `n` arguments, or of a bound of the window,
    which takes none. -/
structure Takes (r : Registry) (name : String) (n : Nat) : Prop where
  scalar : r.isAggregate name = false
  accepts : if (WindowBound.ofName? name).isSome then n = 0
    else ∃ f, r.scalar? name = some f ∧ f.arity.accepts n = true

/-- A scalar function whose number of arguments was checked can be called. -/
theorem resolves_call {r s : Registry} (h : r.Extends s) (hs : s.FunctionsResolve) {name : String}
    {f : ScalarFunction} (hf : r.scalar? name = some f) {args : List Value}
    (hargs : f.arity.accepts args.length = true) : Resolves (s.call name args) := by
  rw [call, h.scalar?_eq hf]
  simp only [hargs, if_true]
  exact hs name f (h.scalar?_eq hf) args

/-- A call that passed the checks and is not one of an aggregate. -/
theorem takes_of_checkCall {r : Registry} {clause name : String} {args : List Expr}
    (h : checkCall r clause (name, args) = .ok ()) (hname : r.isAggregate name = false) :
    r.Takes name args.length := by
  refine ⟨hname, ?_⟩
  unfold checkCall at h
  simp only at h
  split at h
  · cases h
  · split at h
    · next hbound =>
      rw [if_pos hbound]
      split at h
      · next hempty => simpa using hempty
      · cases h
    · next hbound =>
      rw [if_neg hbound]
      split at h
      · next hknown =>
        obtain ⟨_, harguments, -⟩ := bind_eq_ok.1 h
        simp only [contains, hname, Bool.or_false] at hknown
        obtain ⟨f, hf⟩ := Option.isSome_iff_exists.1 hknown
        refine ⟨f, hf, ?_⟩
        simp only [checkArguments, arity?, hf] at harguments
        split at harguments
        · assumption
        · cases harguments
      · cases h

end Registry

/-! ## Trees -/

namespace Expr

/-- All calls in the tree are for scalar functions that take their arguments, all slots are among
    the first `n`, and a list stands only behind IN. -/
inductive Resolved (r : Registry) (n : Nat) : Expr → Prop
  | column (name : String) : Resolved r n (.column name)
  | literal (value : Literal) : Resolved r n (.literal value)
  | slot {index : Nat} : index < n → Resolved r n (.slot index)
  | binary {op : BinaryOp} {left right : Expr} : op ≠ .isIn → op ≠ .notIn → Resolved r n left →
      Resolved r n right → Resolved r n (.binary op left right)
  | membership {negated : Bool} {left : Expr} {items : List Expr} : Resolved r n left →
      (∀ e ∈ items, Resolved r n e) → Resolved r n (.binary (membership negated) left (.list items))
  | unary (op : UnaryOp) {operand : Expr} : Resolved r n operand → Resolved r n (.unary op operand)
  | call {name : String} {args : List Expr} : r.Takes name args.length →
      (∀ e ∈ args, Resolved r n e) → Resolved r n (.call name args)
  | cases {operand otherwise : Option Expr} {branches : List (Expr × Expr)} :
      (∀ e ∈ operand, Resolved r n e) → (∀ b ∈ branches, Resolved r n b.1) →
      (∀ b ∈ branches, Resolved r n b.2) → (∀ e ∈ otherwise, Resolved r n e) →
      Resolved r n (.cases operand branches otherwise)
  | between (negated : Bool) {operand low high : Expr} : Resolved r n operand →
      Resolved r n low → Resolved r n high → Resolved r n (.between negated operand low high)

section

variable {s : Scope}

theorem resolves_evalList {items : List Expr} (h : ∀ e ∈ items, Resolves (e.eval s)) :
    Resolves (evalList s items) := by
  induction items with
  | nil => simp [evalList]
  | cons e rest ih =>
    obtain ⟨he, hrest⟩ := List.forall_mem_cons.1 h
    rw [evalList]
    exact he.bind fun v _ => by simpa using ih hrest

theorem length_of_evalList {items : List Expr} {vs : List Value}
    (h : evalList s items = .ok vs) : vs.length = items.length := by
  induction items generalizing vs with
  | nil =>
    rw [evalList] at h
    cases h
    rfl
  | cons e rest ih =>
    rw [evalList] at h
    obtain ⟨v, -, h⟩ := bind_eq_ok.1 h
    obtain ⟨ws, hws, h⟩ := bind_eq_ok.1 h
    cases h
    simp [ih hws]

theorem resolves_evalItems {items : List Expr} (h : ∀ e ∈ items, Resolves (e.eval s))
    (negated : Bool) (v : Value) (unknown : Bool) :
    Resolves (evalItems s negated v unknown items) := by
  induction items generalizing unknown with
  | nil => simp [evalItems]
  | cons e rest ih =>
    obtain ⟨he, hrest⟩ := List.forall_mem_cons.1 h
    rw [evalItems]
    refine he.bind fun candidate _ => ?_
    split
    · exact ih hrest true
    · split
      · simp
      · exact ih hrest unknown

theorem resolves_evalOption {e : Option Expr} (h : ∀ a ∈ e, Resolves (a.eval s)) :
    Resolves (evalOption s e) := by
  cases e with
  | none => simp [evalOption]
  | some a => simpa [evalOption] using h a rfl

theorem resolves_evalBranches {branches : List (Expr × Expr)}
    (hc : ∀ b ∈ branches, Resolves (b.1.eval s)) (hr : ∀ b ∈ branches, Resolves (b.2.eval s))
    (subject : Option Value) : Resolves (evalBranches s subject branches) := by
  induction branches with
  | nil => simp [evalBranches]
  | cons b rest ih =>
    obtain ⟨hcondition, hconditions⟩ := List.forall_mem_cons.1 hc
    obtain ⟨hresult, hresults⟩ := List.forall_mem_cons.1 hr
    rw [evalBranches]
    refine hcondition.bind fun v _ => ?_
    cases subject
    all_goals
      simp only
      split
      · simpa using hresult
      · exact ih hconditions hresults

end

/-- **Evaluation** of such a tree does not fail because something is not resolved, in any later
    registry. -/
theorem Resolved.resolves_eval {r : Registry} {n : Nat} {e : Expr} (he : Resolved r n e)
    {s : Scope} (hr : r.Extends s.registry) (hs : s.registry.FunctionsResolve)
    (hn : n ≤ s.aggregates.length) : Resolves (e.eval s) := by
  induction he with
  | column | literal => simp [eval]
  | @slot i hi =>
    rw [eval, List.getElem?_eq_getElem (hi.trans_le hn)]
    exact .ok _
  | @binary op left right h₁ h₂ _ _ ihl ihr =>
    cases op
    case isIn => exact absurd rfl h₁
    case notIn => exact absurd rfl h₂
    case and | or =>
      rw [eval]
      refine ihl.bind fun v _ => Resolves.bind (by simp) fun a _ => ?_
      split
      · simp
      · exact ihr.bind fun w _ => by simp
    all_goals
      rw [eval]
      exact ihl.bind fun v _ => ihr.bind fun w _ => Value.resolves_binary _ v w
      all_goals nofun
  | @membership negated left items _ _ ihl ihi =>
    have hmembership : Resolves (evalMembership s negated (left.eval s) (.list items)) := by
      rw [evalMembership]
      refine ihl.bind fun v _ => ?_
      split
      · simp
      · exact resolves_evalItems ihi negated v false
    cases negated with
    | false =>
      show Resolves (eval s (.binary .isIn left (.list items)))
      rwa [eval]
    | true =>
      show Resolves (eval s (.binary .notIn left (.list items)))
      rwa [eval]
  | unary op _ ih =>
    rw [eval]
    exact ih.bind fun v _ => Value.resolves_unary op v
  | @call name args hname _ ih =>
    have haccepts := hname.accepts
    rw [eval]
    cases hbound : WindowBound.ofName? name with
    | some bound =>
      simp only [hbound, Option.isSome_some, if_true, List.length_eq_zero_iff] at haccepts
      simp [haccepts]
    | none =>
      simp only [hbound, Option.isSome_none, Bool.false_eq_true, if_false] at haccepts
      obtain ⟨f, hf, haccepts⟩ := haccepts
      refine (resolves_evalList ih).bind fun vs hvs => ?_
      exact Registry.resolves_call hr hs hf (by rwa [length_of_evalList hvs])
  | cases _ _ _ _ iho ihc ihr ihe =>
    rw [eval]
    refine (resolves_evalOption iho).bind fun subject _ =>
      (resolves_evalBranches ihc ihr subject).bind fun result _ => ?_
    split
    · simp
    · simpa using resolves_evalOption ihe
  | between negated _ _ _ ih₁ ih₂ ih₃ =>
    rw [eval]
    exact ih₁.bind fun v _ => ih₂.bind fun low _ => ih₃.bind fun high _ =>
      Value.resolves_between negated v low high

end Expr

/-! ## Trees of a query -/

namespace Expr

theorem replaceList_eq_map (f : String → List Expr → Option Expr) (items : List Expr) :
    replaceList f items = items.map (replace f) := by
  induction items with
  | nil => rfl
  | cons e rest ih => rw [replaceList, ih, List.map_cons]

theorem replaceOption_eq_map (f : String → List Expr → Option Expr) (e : Option Expr) :
    replaceOption f e = e.map (replace f) := by
  cases e <;> rfl

theorem replaceBranches_eq_map (f : String → List Expr → Option Expr)
    (branches : List (Expr × Expr)) :
    replaceBranches f branches = branches.map fun b => (b.1.replace f, b.2.replace f) := by
  induction branches with
  | nil => rfl
  | cons b rest ih => rw [replaceBranches, ih, List.map_cons]

/-- Calls that passed the checks of some clause. -/
def Vocabulary.valid (r : Registry) : Vocabulary where
  column _ := True
  call name args := ∃ clause, checkCall r clause (name, args) = .ok ()
  literal _ := True

/-- Aggregate calls with a slot, and calls of scalar functions that take their arguments. -/
def Vocabulary.placed (r : Registry) (slots : List Slot) : Vocabulary where
  column _ := True
  call name args :=
    if r.isAggregate name then slotIndex slots name args < slots.length
    else r.Takes name args.length
  literal _ := True

/-- Valid calls whose aggregates have slots. -/
theorem Grammatical.placed {r : Registry} {slots : List Slot} {e : Expr}
    (he : Grammatical (.valid r) e)
    (hslots : ∀ c ∈ e.aggregates r, slotIndex slots c.1 c.2 < slots.length) :
    Grammatical (.placed r slots) e := by
  refine he.of_spells fun t ht => ?_
  cases t with
  | call name args =>
    have hmem : (name, args) ∈ e.calls := List.mem_filterMap.2 ⟨_, ht, rfl⟩
    simp only [Vocabulary.Has, Vocabulary.placed]
    split
    · next hname => exact hslots (name, args) (List.mem_filter.2 ⟨hmem, hname⟩)
    · next hname =>
      obtain ⟨clause, hcheck⟩ : ∃ clause, checkCall r clause (name, args) = .ok () := by
        cases he.call_of_mem _ hmem with
        | call hcheck _ => exact hcheck
      exact Registry.takes_of_checkCall hcheck (Bool.eq_false_iff.2 hname)
  | _ => trivial

/-- With its aggregate calls replaced, a tree can be evaluated if there are results of the
    slots. -/
theorem Grammatical.resolved_replace {r : Registry} {slots : List Slot} {e : Expr}
    (he : Grammatical (.placed r slots) e) :
    Resolved r slots.length (e.replace (slotFor r slots)) := by
  induction he with
  | column | literal =>
    rw [replace]
    constructor
  | binary h₁ h₂ _ _ ihl ihr =>
    rw [replace]
    exact .binary h₁ h₂ ihl ihr
  | membership _ _ ihl ihi =>
    rw [replace, replace, replaceList_eq_map]
    exact .membership ihl (List.forall_mem_map.2 ihi)
  | unary _ _ ih =>
    rw [replace]
    exact .unary _ ih
  | @call name args hcall _ ih =>
    rw [replace, slotFor, replaceList_eq_map]
    simp only [Vocabulary.placed] at hcall
    split at hcall
    · next hname => simpa [hname] using Resolved.slot hcall
    · next hname =>
      simp only [hname, Bool.false_eq_true, if_false, Option.getD_none]
      exact .call (by rwa [List.length_map]) (List.forall_mem_map.2 ih)
  | cases _ _ _ _ _ iho ihc ihr ihe =>
    rw [replace, replaceOption_eq_map, replaceBranches_eq_map, replaceOption_eq_map]
    exact .cases (Option.forall_mem_map.2 iho) (List.forall_mem_map.2 ihc)
      (List.forall_mem_map.2 ihr) (Option.forall_mem_map.2 ihe)
  | between _ _ _ ih₁ ih₂ ih₃ =>
    rw [replace]
    exact .between _ ih₁ ih₂ ih₃

/-- A tree without aggregate calls can be evaluated without slots. -/
theorem Grammatical.resolved {r : Registry} {e : Expr} (he : Grammatical (.valid r) e)
    (hplain : e.aggregates r = []) : Resolved r 0 e := by
  have hplaced : Grammatical (.placed r []) e := he.placed (by simp [hplain])
  clear he hplain
  induction hplaced with
  | column => exact .column _
  | literal => exact .literal _
  | binary h₁ h₂ _ _ ihl ihr => exact .binary h₁ h₂ ihl ihr
  | membership _ _ ihl ihi => exact .membership ihl ihi
  | unary _ _ ih => exact .unary _ ih
  | call hcall _ ih =>
    simp only [Vocabulary.placed] at hcall
    split at hcall
    · cases hcall
    · exact .call hcall ih
  | cases _ _ _ _ _ iho ihc ihr ihe => exact .cases iho ihc ihr ihe
  | between _ _ _ ih₁ ih₂ ih₃ => exact .between _ ih₁ ih₂ ih₃

end Expr

/-! ## Plans -/

theorem Query.valid_of_validate {q : Query} {r : Registry} (h : q.validate r = .ok ()) {e : Expr}
    (he : e ∈ q.expressions) (hread : IsRead e) : Grammatical (.valid r) e := by
  refine hread.of_spells fun t ht => ?_
  cases t with
  | call name args =>
    exact Query.checkCall_of_validate h e he _ (List.mem_filterMap.2 ⟨_, ht, rfl⟩)
  | _ => trivial

theorem aggregates_of_checkPlain {r : Registry} {fault : String → ValidationFault} {e : Expr}
    (h : checkPlain r fault e = .ok ()) : e.aggregates r = [] := by
  unfold checkPlain at h
  split at h
  · cases h
  · next hnone =>
    simp only [firstAggregate?, Option.map_eq_none_iff, List.find?_eq_none] at hnone
    exact List.filter_eq_nil_iff.2 hnone

/-- WHERE and GROUP BY of a valid query call no aggregates. -/
theorem Query.plain_of_validate {q : Query} {r : Registry} (h : q.validate r = .ok ()) :
    ∀ e ∈ q.condition.toList ++ q.groupBy, e.aggregates r = [] := by
  obtain ⟨_, -, h⟩ := bind_eq_ok.1 h
  obtain ⟨_, -, h⟩ := bind_eq_ok.1 h
  obtain ⟨_, -, h⟩ := bind_eq_ok.1 h
  obtain ⟨_, -, h⟩ := bind_eq_ok.1 h
  obtain ⟨_, -, h⟩ := bind_eq_ok.1 h
  obtain ⟨_, h, -⟩ := bind_eq_ok.1 h
  obtain ⟨_, hcondition, h⟩ := bind_eq_ok.1 h
  obtain ⟨_, hgroupBy, -⟩ := bind_eq_ok.1 h
  intro e he
  rcases List.mem_append.1 he with he | he
  · exact aggregates_of_checkPlain (forM_eq_ok hcondition e he)
  · exact aggregates_of_checkPlain (forM_eq_ok hgroupBy e he)

/-- The expression of a column. -/
def Output.expression? : Output → Option Compiled
  | .wildcard => none
  | .column _ e => some e

namespace Plan

/-- The expressions that are evaluated for a record: WHERE, GROUP BY and the inputs of the
    slots. -/
def recordExpressions (p : Plan) : List Compiled :=
  p.condition.toList ++ p.groupBy ++ p.slots.filterMap Slot.input

/-- The expressions that are evaluated for a row, given the results of the slots: the columns and
    HAVING. -/
def rowExpressions (p : Plan) : List Compiled :=
  p.outputs.filterMap Output.expression? ++ p.having.toList

variable {q : Query} {r : Registry} {p : Plan}

/-- WHERE and GROUP BY of a plan are those of its query. -/
theorem conditions_of_build (h : build q r = .ok p) :
    p.condition = q.condition.map .ofExpr ∧ p.groupBy = q.groupBy.map .ofExpr := by
  obtain ⟨_, -, h⟩ := bind_eq_ok.1 h
  obtain ⟨_, -, h⟩ := bind_eq_ok.1 h
  obtain ⟨_, -, h⟩ := bind_eq_ok.1 h
  obtain ⟨_, -, h⟩ := bind_eq_ok.1 h
  cases h
  exact ⟨rfl, rfl⟩

section

variable {text : String}

/-- An aggregate call in SELECT or HAVING. -/
theorem mem_aggregates {c : String × List Expr} (hc : c ∈ q.aggregates r) :
    ∃ e ∈ q.selected ++ q.having.toList, c ∈ e.calls ∧ r.isAggregate c.1 = true := by
  obtain ⟨e, he, hc⟩ := List.mem_flatMap.1 hc
  exact ⟨e, he, List.mem_filter.1 hc⟩

theorem resolved_condition (hparse : Query.parse text = .ok q) (hbuild : build q r = .ok p) :
    ∀ c ∈ p.condition.toList ++ p.groupBy, Resolved r 0 c.tree := by
  obtain ⟨hvalid, -, -⟩ := build_eq_ok hbuild
  obtain ⟨hcondition, hgroupBy⟩ := conditions_of_build hbuild
  have hall : ∀ e ∈ q.condition.toList ++ q.groupBy, Resolved r 0 e := fun e he => by
    have hmem : e ∈ q.expressions := by
      rw [Query.expressions, List.append_assoc q.selected]
      exact List.mem_append_left _ (List.mem_append_right _ he)
    have hgrammar := Query.valid_of_validate hvalid hmem (Query.parse_isRead hparse e hmem)
    exact hgrammar.resolved (Query.plain_of_validate hvalid e he)
  rw [hcondition, hgroupBy]
  intro c hc
  have hc : c ∈ (q.condition.toList ++ q.groupBy).map Compiled.ofExpr := by
    simpa [Option.toList_map] using hc
  obtain ⟨e, he, rfl⟩ := List.mem_map.1 hc
  exact hall e he

theorem resolved_inputs (hparse : Query.parse text = .ok q) (hbuild : build q r = .ok p) :
    ∀ c ∈ p.slots.filterMap Slot.input, Resolved r 0 c.tree := by
  obtain ⟨hvalid, -, -⟩ := build_eq_ok hbuild
  intro c hc
  obtain ⟨s, hs, hinput⟩ := List.mem_filterMap.1 hc
  rcases (places_of_build hparse hbuild).origin s hs with hnil | ⟨⟨name, args⟩, hcall, hanswers⟩
  · cases hnil
  · obtain ⟨e, he, hmem, hname⟩ := mem_aggregates hcall
    have hread := isRead_of_parse hparse e he
    have hgrammar := Query.valid_of_validate hvalid (Query.mem_expressions he) hread
    rw [hanswers.input, Option.map_eq_some_iff] at hinput
    obtain ⟨arg, harg, rfl⟩ := hinput
    have harg : arg ∈ args := List.mem_of_mem_head? harg
    cases hgrammar.call_of_mem _ hmem with
    | call _ hargs =>
      have hflat := Query.flat_of_validate hvalid e he _ (List.mem_filter.2 ⟨hmem, hname⟩)
      exact (hargs arg harg).resolved (hflat arg harg)

/-- Every aggregate call of the query has a slot. -/
theorem slotIndex_lt (hparse : Query.parse text = .ok q) (hbuild : build q r = .ok p) :
    ∀ c ∈ q.aggregates r, slotIndex p.slots c.1 c.2 < p.slots.length := fun c hc => by
  obtain ⟨s, hs, hsig⟩ := (places_of_build hparse hbuild).found c hc
  exact List.findIdx_lt_length.2 ⟨s, hs, decide_eq_true hsig⟩

theorem resolved_row (hparse : Query.parse text = .ok q) (hbuild : build q r = .ok p) :
    ∀ c ∈ p.rowExpressions, Resolved r p.slots.length c.tree := by
  obtain ⟨hvalid, -, -⟩ := build_eq_ok hbuild
  obtain ⟨houtputs, hhaving⟩ := (places_of_build hparse hbuild).holds p.slots (List.prefix_refl _)
  have hall : ∀ e ∈ q.selected ++ q.having.toList,
      Resolved r p.slots.length (e.replace (slotFor r p.slots)) := fun e he => by
    have hgrammar := Query.valid_of_validate hvalid (Query.mem_expressions he)
      (isRead_of_parse hparse e he)
    refine (hgrammar.placed fun c hc => ?_).resolved_replace
    exact slotIndex_lt hparse hbuild c (List.mem_flatMap.2 ⟨e, he, hc⟩)
  intro c hc
  rcases List.mem_append.1 hc with hc | hc
  · rw [houtputs, List.filterMap_map] at hc
    obtain ⟨field, hfield, hc⟩ := List.mem_filterMap.1 hc
    cases field with
    | wildcard => cases hc
    | column e alias? =>
      obtain rfl := Option.some.inj hc
      exact hall e (List.mem_append_left _ (List.mem_filterMap.2 ⟨_, hfield, rfl⟩))
  · rw [hhaving] at hc
    simp only [Option.mem_toList, Option.map_eq_some_iff] at hc
    obtain ⟨e, he, rfl⟩ := hc
    exact hall e (List.mem_append_right _ (Option.mem_toList.2 he))

/-- **All trees of a plan** can be evaluated: those of a record without slots, those of a row with
    the slots of the plan. -/
theorem resolved_of_build (hparse : Query.parse text = .ok q) (hbuild : build q r = .ok p) :
    (∀ c ∈ p.recordExpressions, Resolved r 0 c.tree) ∧
      ∀ c ∈ p.rowExpressions, Resolved r p.slots.length c.tree := by
  refine ⟨fun c hc => ?_, resolved_row hparse hbuild⟩
  rcases List.mem_append.1 hc with hc | hc
  · exact resolved_condition hparse hbuild c hc
  · exact resolved_inputs hparse hbuild c hc

/-- **No expression of an accepted query fails because something is not resolved**, in the registry
    of the plan or a later one, unless a function of this registry itself fails like this. -/
theorem eval_resolves (hparse : Query.parse text = .ok q) (hbuild : build q r = .ok p)
    {s : Scope} (hr : r.Extends s.registry) (hs : s.registry.FunctionsResolve) :
    (∀ c ∈ p.recordExpressions, Resolves (c.eval s)) ∧
      (s.aggregates.length = p.slots.length → ∀ c ∈ p.rowExpressions, Resolves (c.eval s)) := by
  obtain ⟨hrecord, hrow⟩ := resolved_of_build hparse hbuild
  constructor
  · intro c hc
    exact (hrecord c hc).resolves_eval hr hs (Nat.zero_le _)
  · intro hlength c hc
    exact (hrow c hc).resolves_eval hr hs hlength.ge

end

end Plan

/-- The plan of the newest values in a registry with one function more. -/
theorem Plan.eval_resolves_newest :
    let now : ScalarFunction := ⟨.exactly 0, Scalar.now 1⟩
    let sample : Record := ⟨[("v", .integer 5)]⟩
    ∃ p r, Plan.build Query.newest (.standard 0) = .ok p ∧
      (Registry.standard 0).registerScalar "TODAY" now = .ok r ∧
      (∀ c ∈ p.recordExpressions, Resolves (c.eval { record := sample, registry := r })) ∧
      ∀ c ∈ p.rowExpressions, Resolves (c.eval
        { record := sample, registry := r, aggregates := [.integer 7, .integer 5] }) := by
  intro now sample
  obtain ⟨p, hp, hlength⟩ : ∃ p, Plan.build Query.newest (.standard 0) = .ok p ∧
      p.slots.length = 2 := by
    have hsome : (Plan.build Query.newest (.standard 0)).toOption.map (·.slots.length) =
        some 2 := by decide +kernel
    cases h : Plan.build Query.newest (.standard 0) with
    | ok p =>
      rw [h] at hsome
      exact ⟨p, rfl, Option.some.inj hsome⟩
    | error e =>
      rw [h] at hsome
      cases hsome
  let r : Registry :=
    { Registry.standard 0 with scalars := (Registry.standard 0).scalars.insert "TODAY" now }
  have hregister : (Registry.standard 0).registerScalar "TODAY" now = .ok r := by
    have hnew : (Registry.standard 0).contains "TODAY" = false := by decide +kernel
    refine bind_eq_ok.2 ⟨Text.upper "TODAY", ?_, ?_⟩
    · rw [Registry.claimName, hnew]
      rfl
    · rw [show Text.upper "TODAY" = "TODAY" by decide +kernel]
      rfl
  have hextends : (Registry.standard 0).Extends r := .scalar .refl hregister
  have hresolve : r.FunctionsResolve :=
    (Registry.functionsResolve_standard 0).insert _ (Scalar.resolves_now 1)
  obtain ⟨hrecord, -⟩ := Plan.eval_resolves Query.parse_newest hp
    (s := { record := sample, registry := r }) hextends hresolve
  obtain ⟨-, hrow⟩ := Plan.eval_resolves Query.parse_newest hp
    (s := { record := sample, registry := r, aggregates := [.integer 7, .integer 5] }) hextends
    hresolve
  exact ⟨p, r, hp, hregister, hrecord, hrow hlength.symm⟩

end StreamSql
