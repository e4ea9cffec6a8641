/-
  Which columns the value of an expression depends on.

  * `Scope.on s record`: the scope with another record in it;
  * `Scope.Agrees s record e`: every column of the expression has the same value in both scopes
    (`Agrees.part`: then every column of its parts does, which is what an evaluation descends to,
    whichever parts it skips);
  * `eval_on`: an expression has the same value, or fails in the same way, on records that agree;
  * `Compiled.eval_on_fields`: the fields of a compiled expression are all that it depends on.
-/
import StreamSql.Expr.Compiled
import StreamSql.Proofs.Sharing

namespace StreamSql

theorem mem_eraseReps_loop {α : Type} [BEq α] [LawfulBEq α] {x a : α} {rest acc : List α} :
    x ∈ List.eraseRepsBy.loop (· == ·) a rest acc ↔ x ∈ acc ∨ x ∈ a :: rest := by
  induction rest generalizing a acc with
  | nil => simp [List.eraseRepsBy.loop, or_comm]
  | cons b rest ih =>
    by_cases h : a = b
    · subst h
      simp [List.eraseRepsBy.loop, ih]
    · simp [List.eraseRepsBy.loop, beq_false_of_ne h, ih, or_assoc, or_left_comm]

/-- A list without repetitions has the same members. -/
theorem mem_eraseReps {α : Type} [BEq α] [LawfulBEq α] {x : α} :
    ∀ {l : List α}, x ∈ l.eraseReps ↔ x ∈ l
  | [] => Iff.rfl
  | a :: rest => by simp [List.eraseReps, List.eraseRepsBy, mem_eraseReps_loop]

namespace Scope

/-- The scope with another record; functions, aggregates, window and aliases stay. -/
def on (s : Scope) (record : Record) : Scope :=
  { s with record }

variable (s : Scope) (record : Record)

@[simp]
theorem on_registry : (s.on record).registry = s.registry := rfl

@[simp]
theorem on_aggregates : (s.on record).aggregates = s.aggregates := rfl

@[simp]
theorem on_window : (s.on record).window = s.window := rfl

/-- A column has the same value if the path of the record has; an alias comes before both. -/
theorem column_on {name : String} (h : s.record.path name = record.path name) :
    (s.on record).column name = s.column name := by
  unfold column on
  cases s.aliases.bind (Table.get? · name) with
  | none => exact h.symm
  | some v => rfl

/-- The columns of the expression have the same values on the other record. -/
def Agrees (e : Expr) : Prop :=
  ∀ f ∈ e.columns, (s.on record).column f = s.column f

end Scope

namespace Expr

theorem columns_eq (e : Expr) : e.columns = e.column?.toList ++ e.parts.flatMap columns :=
  filterMap_subterms_eq column? e

variable {s : Scope} {record : Record}

theorem agrees_part {e a : Expr} (h : s.Agrees record e) (ha : a ∈ e.parts) :
    s.Agrees record a := by
  intro f hf
  apply h
  rw [columns_eq]
  exact List.mem_append_right _ (List.mem_flatMap.2 ⟨a, ha, hf⟩)

theorem agrees_branch {operand otherwise : Option Expr} {branches : List (Expr × Expr)}
    (h : s.Agrees record (.cases operand branches otherwise)) {b : Expr × Expr}
    (hb : b ∈ branches) : s.Agrees record b.1 ∧ s.Agrees record b.2 := by
  have hpart : ∀ e ∈ [b.1, b.2], e ∈ parts (.cases operand branches otherwise) := fun e he =>
    List.mem_append_left _ (List.mem_append_right _ (List.mem_flatMap.2 ⟨b, hb, he⟩))
  exact ⟨agrees_part h (hpart b.1 (by simp)), agrees_part h (hpart b.2 (by simp))⟩

mutual

/-- **An expression depends on its columns only**: it has the same value, or fails in the same
    way, on a record that agrees on them. -/
theorem eval_on : ∀ e : Expr, s.Agrees record e → e.eval (s.on record) = e.eval s
  | .column name, h => by
    rw [eval, eval, h name (by simp [columns, subterms, column?])]
  | .literal _, _ | .list _, _ => by simp only [eval]
  | .slot _, _ => by simp only [eval, Scope.on_aggregates]
  | .unary op operand, h => by
    simp only [eval, eval_on operand (agrees_part h (by simp [parts]))]
  | .between negated operand low high, h => by
    simp only [eval, eval_on operand (agrees_part h (by simp [parts])),
      eval_on low (agrees_part h (by simp [parts])), eval_on high (agrees_part h (by simp [parts]))]
  | .call name args, h => by
    simp only [eval, Scope.on_window, Scope.on_registry,
      evalList_on args fun a ha => agrees_part h ha]
  | .cases operand branches otherwise, h => by
    have hoperand : ∀ a ∈ operand, s.Agrees record a := fun a ha =>
      agrees_part h (List.mem_append_left _ (List.mem_append_left _ (Option.mem_toList.2 ha)))
    have hotherwise : ∀ a ∈ otherwise, s.Agrees record a := fun a ha =>
      agrees_part h (List.mem_append_right _ (Option.mem_toList.2 ha))
    simp only [eval, evalOption_on operand hoperand, evalOption_on otherwise hotherwise,
      evalBranches_on _ branches fun b hb => agrees_branch h hb]
  | .binary op left right, h => by
    have hleft := eval_on left (agrees_part h (by simp [parts]))
    have hright := agrees_part h (a := right) (by simp [parts])
    cases op <;>
      simp only [eval, hleft, eval_on right hright, evalMembership_on _ _ right hright]

theorem evalMembership_on (negated : Bool) (left : Except QueryError Value) :
    ∀ e : Expr, s.Agrees record e →
      evalMembership (s.on record) negated left e = evalMembership s negated left e
  | .list items, h => by
    simp only [evalMembership, evalItems_on negated _ _ items fun a ha => agrees_part h ha]
  | .column _, _ | .literal _, _ | .slot _, _ | .unary _ _, _ | .between _ _ _ _, _
  | .call _ _, _ | .cases _ _ _, _ | .binary _ _ _, _ => by simp only [evalMembership]

theorem evalItems_on (negated : Bool) (v : Value) (unknown : Bool) :
    ∀ items : List Expr, (∀ e ∈ items, s.Agrees record e) →
      evalItems (s.on record) negated v unknown items = evalItems s negated v unknown items
  | [], _ => by simp only [evalItems]
  | e :: rest, h => by
    obtain ⟨he, hrest⟩ := List.forall_mem_cons.1 h
    simp only [evalItems, eval_on e he, evalItems_on negated v _ rest hrest]

theorem evalList_on : ∀ items : List Expr, (∀ e ∈ items, s.Agrees record e) →
    evalList (s.on record) items = evalList s items
  | [], _ => by simp only [evalList]
  | e :: rest, h => by
    obtain ⟨he, hrest⟩ := List.forall_mem_cons.1 h
    simp only [evalList, eval_on e he, evalList_on rest hrest]

theorem evalOption_on : ∀ e : Option Expr, (∀ a ∈ e, s.Agrees record a) →
    evalOption (s.on record) e = evalOption s e
  | none, _ => by simp only [evalOption]
  | some e, h => by simp only [evalOption, eval_on e (h e rfl)]

theorem evalBranches_on (subject : Option Value) : ∀ branches : List (Expr × Expr),
    (∀ b ∈ branches, s.Agrees record b.1 ∧ s.Agrees record b.2) →
      evalBranches (s.on record) subject branches = evalBranches s subject branches
  | [], _ => by simp only [evalBranches]
  | (condition, result) :: rest, h => by
    obtain ⟨⟨hcondition, hresult⟩, hrest⟩ := List.forall_mem_cons.1 h
    simp only [evalBranches, eval_on condition hcondition, eval_on result hresult,
      evalBranches_on subject rest hrest]

end

end Expr

namespace Compiled

theorem mem_fields {c : Compiled} {f : String} : f ∈ c.fields ↔ f ∈ c.tree.columns := by
  rw [fields, mem_eraseReps, List.mem_mergeSort]

/-- **The fields of an expression are all that it depends on**, in any scope: on two records that
    have the same values under its fields it has the same value or fails in the same way, and so
    does the condition. -/
theorem eval_on_fields (c : Compiled) (s : Scope) (record : Record)
    (h : ∀ f ∈ c.fields, s.record.path f = record.path f) :
    c.eval (s.on record) = c.eval s ∧ c.holds (s.on record) = c.holds s := by
  have hagrees : s.Agrees record c.tree := fun f hf => s.column_on record (h f (mem_fields.2 hf))
  have heval : c.tree.eval (s.on record) = c.tree.eval s := Expr.eval_on c.tree hagrees
  refine ⟨heval, ?_⟩
  unfold holds Expr.holds
  rw [heval]

/-- `CASE WHEN a = 5 THEN b ELSE c END` on two records with the same `a`, `b` and `c`. -/
theorem eval_on_fields_branches :
    let c : Compiled := .ofExpr (.cases none
      [(.binary .equal (.column "a") (.literal (.integer 5)), .column "b")] (some (.column "c")))
    let s : Scope :=
      { record := ⟨[("a", .integer 5), ("b", .integer 1), ("c", .null), ("d", .boolean true)]⟩,
        registry := {} }
    let record : Record := ⟨[("e", .null), ("c", .null), ("b", .integer 1), ("a", .integer 5)]⟩
    c.eval (s.on record) = .ok (.integer 1) ∧ c.holds (s.on record) = .ok true := by
  intro c s record
  obtain ⟨heval, hholds⟩ := c.eval_on_fields s record (by
    intro f hf
    have hcolumns : c.tree.columns = ["a", "b", "c"] := rfl
    rw [mem_fields, hcolumns] at hf
    simp only [List.mem_cons, List.not_mem_nil, or_false] at hf
    rcases hf with rfl | rfl | rfl <;> rfl)
  have hvalue : c.eval s = .ok (.integer 1) := rfl
  have htruth : c.holds s = .ok true := rfl
  exact ⟨heval.trans hvalue, hholds.trans htruth⟩

end Compiled

end StreamSql
