/-
  Simple CASE and IN written out with `=` and OR.

  * `Expr.searched`: the branches of a simple CASE as conditions on its subject;
  * `Expr.anyEqual`: the chain `((x = i₁ OR x = i₂) OR …) OR x = iₙ` of IN;
  * `evalBranches_searched`: the branches are tried as the conditions are;
  * `eval_anyEqual`: the chain goes through the items as IN does, stops at the same item, and
    fails where IN fails;
  * `eval_written_out`: both constructs have the values and the failures of what they are
    written out as.
-/
import Mathlib.Tactic.Common
import StreamSql.Proofs.Negation

namespace StreamSql

namespace Value

/-- What `=` gives for a value that is not NULL. -/
theorem binary_equal {v : Value} (hv : v.isNull = false) (candidate : Value) :
    binary .equal v candidate =
      .ok (if candidate.isNull then null else boolean (v.sqlEquals candidate)) := by
  cases hc : candidate.isNull <;> simp [binary, strict, hv, hc]

/-- A value matches the subject of a CASE exactly if the equation holds as a condition. -/
theorem binary_equal_isTruthy (subject candidate : Value) :
    ∃ v, binary .equal subject candidate = .ok v ∧
      v.isTruthy = matchesSubject subject candidate := by
  unfold matchesSubject
  cases hs : subject.isNull with
  | true => exact ⟨null, by simp [binary, hs], rfl⟩
  | false =>
    refine ⟨_, binary_equal hs candidate, ?_⟩
    cases candidate.isNull <;> simp [isTruthy]

/-- What OR gives as long as no side holds. -/
def undecided (unknown : Bool) : Value :=
  if unknown then null else boolean false

/-- An equation more behind OR: it decides, or makes the result unknown, or changes nothing. -/
theorem connect_binary_equal (unknown : Bool) {v : Value} (hv : v.isNull = false)
    (candidate : Value) :
    connect "OR" true (.ok (undecided unknown)) (binary .equal v candidate) =
      .ok (if candidate.isNull then null
        else if v.sqlEquals candidate then boolean true else undecided unknown) := by
  rw [binary_equal hv]
  cases unknown <;> cases candidate.isNull <;> cases v.sqlEquals candidate <;> rfl

end Value

namespace Expr

open Value

variable {s : Scope}

theorem eval_equal (s : Scope) (x e : Expr) :
    (Expr.binary .equal x e).eval s =
      x.eval s >>= fun a => e.eval s >>= fun b => Value.binary .equal a b := by
  rw [eval] <;> simp

/-! ## Simple CASE -/

/-- The branches of a simple CASE as conditions on its subject. -/
def searched (subject : Expr) (branches : List (Expr × Expr)) : List (Expr × Expr) :=
  branches.map fun branch => (.binary .equal subject branch.1, branch.2)

/-- The branches of a simple CASE are tried as the conditions of the searched one are. -/
theorem evalBranches_searched {subject : Expr} {v : Value} (hv : subject.eval s = .ok v)
    (branches : List (Expr × Expr)) :
    evalBranches s none (searched subject branches) = evalBranches s (some v) branches := by
  induction branches with
  | nil => rfl
  | cons branch rest ih =>
    obtain ⟨condition, result⟩ := branch
    have hcons : searched subject ((condition, result) :: rest) =
        (.binary .equal subject condition, result) :: searched subject rest := rfl
    rw [hcons, evalBranches, evalBranches, ih, eval_equal, hv]
    cases condition.eval s with
    | error e => rfl
    | ok candidate =>
      obtain ⟨w, hw, htruthy⟩ := binary_equal_isTruthy v candidate
      simp only [bind, Except.bind, hw, htruthy]

theorem eval_cases_searched (s : Scope) (subject : Expr) {branches : List (Expr × Expr)}
    (hne : branches ≠ []) (otherwise : Option Expr) :
    (Expr.cases (some subject) branches otherwise).eval s =
      (Expr.cases none (searched subject branches) otherwise).eval s := by
  rw [eval, eval, evalOption, evalOption]
  cases hv : subject.eval s with
  | ok v => simp only [bind, Except.bind, pure, Except.pure, evalBranches_searched hv]
  | error e =>
    -- the searched CASE meets the failure in its first condition
    obtain ⟨⟨condition, result⟩, rest, rfl⟩ := List.exists_cons_of_ne_nil hne
    simp only [searched, List.map_cons, evalBranches, eval_equal, hv, bind, Except.bind]

/-! ## IN -/

/-- A chain with one equation more. -/
def orEqual (x chain e : Expr) : Expr :=
  .binary .or chain (.binary .equal x e)

/-- The chain of equations that IN stands for. -/
def anyEqual (x first : Expr) (rest : List Expr) : Expr :=
  rest.foldl (orEqual x) (.binary .equal x first)

/-- The result of a chain with one equation more, given the result of the chain. -/
def connectEqual (s : Scope) (x : Expr) (found : Except QueryError Value) (e : Expr) :
    Except QueryError Value :=
  connect "OR" true found ((Expr.binary .equal x e).eval s)

theorem eval_foldl_orEqual (s : Scope) (x chain : Expr) (items : List Expr) :
    (items.foldl (orEqual x) chain).eval s = items.foldl (connectEqual s x) (chain.eval s) := by
  induction items generalizing chain with
  | nil => rfl
  | cons e rest ih => rw [List.foldl_cons, List.foldl_cons, ih, orEqual, eval_or, connectEqual]

/-- What is decided or has failed remains so, whatever is still to come. -/
theorem foldl_connectEqual_settled {x : Expr} {found : Except QueryError Value}
    (h : ∀ y, connect "OR" true found y = found) (items : List Expr) :
    items.foldl (connectEqual s x) found = found := by
  induction items with
  | nil => rfl
  | cons e rest ih => rw [List.foldl_cons, connectEqual, h, ih]

section
variable {x : Expr} {v : Value} (hx : x.eval s = .ok v) (hv : v.isNull = false)
include hx hv

/-- As long as nothing is decided, the chain goes through the items as IN does. -/
theorem foldl_connectEqual (unknown : Bool) (items : List Expr) :
    items.foldl (connectEqual s x) (.ok (undecided unknown)) =
      evalItems s false v unknown items := by
  induction items generalizing unknown with
  | nil =>
    rw [List.foldl_nil, evalItems]
    rfl
  | cons e rest ih =>
    rw [List.foldl_cons, evalItems, connectEqual, eval_equal, hx]
    cases e.eval s with
    | error err =>
      have hfail : connect "OR" true (.ok (undecided unknown)) (.error err) = .error err := by
        cases unknown <;> rfl
      simp only [bind, Except.bind, hfail]
      exact foldl_connectEqual_settled (fun _ => rfl) rest
    | ok candidate =>
      simp only [bind, Except.bind, connect_binary_equal unknown hv]
      cases candidate.isNull with
      | true => exact ih true
      | false =>
        cases v.sqlEquals candidate with
        | true => exact foldl_connectEqual_settled (fun _ => rfl) rest
        | false => exact ih unknown

/-- **The chain of equations** goes through the items as IN does. -/
theorem eval_anyEqual (first : Expr) (rest : List Expr) :
    (anyEqual x first rest).eval s = evalItems s false v false (first :: rest) := by
  have hfirst : connectEqual s x (.ok (undecided false)) first =
      (Expr.binary .equal x first).eval s := by
    rw [connectEqual, eval_equal, hx]
    cases first.eval s with
    | error e => rfl
    | ok candidate =>
      simp only [bind, Except.bind, binary_equal hv]
      cases candidate.isNull <;> cases v.sqlEquals candidate <;> rfl
  rw [anyEqual, eval_foldl_orEqual, ← hfirst, ← List.foldl_cons, foldl_connectEqual hx hv]

end

theorem eval_isIn (s : Scope) (x : Expr) (items : List Expr) :
    (Expr.binary .isIn x (.list items)).eval s =
      evalMembership s false (x.eval s) (.list items) := by
  rw [eval]

theorem eval_notIn (s : Scope) (x : Expr) (items : List Expr) :
    (Expr.binary .notIn x (.list items)).eval s =
      (Expr.unary .not (.binary .isIn x (.list items))).eval s := by
  have hnot : (Expr.binary .notIn x (.list items)).eval s =
      evalMembership s true (x.eval s) (.list items) := by
    rw [eval]
  rw [hnot, eval, eval_isIn]
  exact (opposed_evalMembership s false (x.eval s) items).not_eq.symm

/-- IN is its chain of equations, unless the left side is NULL. -/
theorem eval_isIn_anyEqual {x : Expr} (hx : x.eval s ≠ .ok .null) (first : Expr)
    (rest : List Expr) :
    (Expr.binary .isIn x (.list (first :: rest))).eval s = (anyEqual x first rest).eval s := by
  rw [eval_isIn, evalMembership]
  cases hv : x.eval s with
  | ok v =>
    have hnull : v.isNull = false := by
      rw [Bool.eq_false_iff, Ne, isNull_iff]
      rintro rfl
      exact hx hv
    rw [eval_anyEqual hv hnull]
    simp only [bind, Except.bind, hnull, Bool.false_eq_true, if_false]
  | error e =>
    -- the chain meets the failure in its first equation
    have hfail : (Expr.binary .equal x first).eval s = .error e := by
      rw [eval_equal, hv]
      rfl
    rw [anyEqual, eval_foldl_orEqual, hfail]
    exact (foldl_connectEqual_settled (fun _ => rfl) rest).symm

/-! ## Both constructs -/

/-- **Written out**: a simple CASE evaluates as the searched CASE of its equations does, IN as
    the chain of its equations, and NOT IN as the negation of the chain: to the same value, or
    with the same failure.  A left side of IN that is NULL is left out, for there the items are
    not looked at. -/
theorem eval_written_out (s : Scope) :
    (∀ subject branches otherwise, branches ≠ [] →
      (Expr.cases (some subject) branches otherwise).eval s =
        (Expr.cases none (searched subject branches) otherwise).eval s) ∧
    ∀ x first rest, x.eval s ≠ .ok .null →
      (Expr.binary .isIn x (.list (first :: rest))).eval s = (anyEqual x first rest).eval s ∧
      (Expr.binary .notIn x (.list (first :: rest))).eval s =
        (Expr.unary .not (anyEqual x first rest)).eval s := by
  refine ⟨fun subject branches otherwise hne => eval_cases_searched s subject hne otherwise,
    fun x first rest hx => ?_⟩
  have hin := eval_isIn_anyEqual hx first rest
  refine ⟨hin, ?_⟩
  rw [eval_notIn, eval, eval, hin]

/-- A CASE whose second branch matches in front of one that would fail, and a list in which a
    NULL is followed by an item that fails. -/
theorem eval_written_out_failing :
    let a := Expr.column "a"
    let fails := Expr.unary .not a
    let s : Scope := { record := ⟨[("a", .integer 3)]⟩, registry := {} }
    let branches := [(.literal .null, .literal (.text "none")),
      (.literal (.integer 3), .literal (.text "three")), (fails, a)]
    let items := [Expr.literal .null, fails]
    branches ≠ [] ∧ a.eval s ≠ .ok .null ∧
      (Expr.cases none (searched a branches) none).eval s = .ok (.text "three") ∧
      (Expr.cases (some a) branches none).eval s = .ok (.text "three") ∧
      (anyEqual a (.literal (.integer 4)) items).eval s =
        Value.mismatch (.booleanOperand "NOT") (.integer 3) ∧
      (Expr.binary .isIn a (.list (.literal (.integer 4) :: items))).eval s =
        Value.mismatch (.booleanOperand "NOT") (.integer 3) := by
  intro a fails s branches items
  have hne : branches ≠ [] := nofun
  have hvalue : a.eval s = .ok (.integer 3) := rfl
  have ha : a.eval s ≠ .ok .null := by
    rw [hvalue]
    exact nofun
  obtain ⟨hcases, hin⟩ := eval_written_out s
  have hthree : (Expr.cases none (searched a branches) none).eval s = .ok (.text "three") := rfl
  have hfails : (anyEqual a (.literal (.integer 4)) items).eval s =
      Value.mismatch (.booleanOperand "NOT") (.integer 3) := rfl
  exact ⟨hne, ha, hthree, (hcases a branches none hne).trans hthree, hfails,
    (hin a _ items ha).1.trans hfails⟩

end Expr

end StreamSql
