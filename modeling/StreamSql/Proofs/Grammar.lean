/-
  The trees that the readers of expressions make.

  * `Vocabulary`: conditions on the columns, the calls and the constants of a tree;
  * `Grammatical v e`: the tree is built by the productions of the grammar from columns, calls
    and constants of the vocabulary.  A list stands only behind IN, a CASE has a branch, the sign of
    a number is part of it, and neither a plus with one operand nor a slot occurs;
  * `Derives.grammatical`: the grammar makes no other trees, so no reader does (`readAt_isRead`),
    and `Query.parse_isRead` neither.
-/
import Mathlib.Tactic.Common
import StreamSql.Proofs.Derivation
import StreamSql.Query.Parser

namespace StreamSql

namespace Expr

/-! ## Productions -/

/-- Conditions on the columns, the calls and the constants of a tree. -/
structure Vocabulary where
  column : String → Prop
  call : String → List Expr → Prop
  literal : Literal → Prop

/-- All columns, calls and constants. -/
def Vocabulary.any : Vocabulary := ⟨fun _ => True, fun _ _ => True, fun _ => True⟩

/-- The tree is the constant of a number. -/
def isNumber : Expr → Bool
  | .literal (.integer _) | .literal (.float _) => true
  | _ => false

/-- The trees of the grammar. -/
inductive Grammatical (v : Vocabulary) : Expr → Prop
  | column {name : String} : v.column name → Grammatical v (.column name)
  | literal {value : Literal} : v.literal value → Grammatical v (.literal value)
  | binary {op : BinaryOp} {left right : Expr} : op ≠ .isIn → op ≠ .notIn →
      Grammatical v left → Grammatical v right → Grammatical v (.binary op left right)
  | membership {negated : Bool} {left : Expr} {items : List Expr} : Grammatical v left →
      (∀ e ∈ items, Grammatical v e) →
      Grammatical v (.binary (membership negated) left (.list items))
  | unary {op : UnaryOp} {operand : Expr} :
      op ≠ .plus ∧ (op = .minus → operand.isNumber = false) →
      Grammatical v operand → Grammatical v (.unary op operand)
  | call {name : String} {args : List Expr} : v.call name args → (∀ e ∈ args, Grammatical v e) →
      Grammatical v (.call name args)
  | cases {operand otherwise : Option Expr} {branches : List (Expr × Expr)} : branches ≠ [] →
      (∀ e ∈ operand, Grammatical v e) → (∀ b ∈ branches, Grammatical v b.1) →
      (∀ b ∈ branches, Grammatical v b.2) → (∀ e ∈ otherwise, Grammatical v e) →
      Grammatical v (.cases operand branches otherwise)
  | between {negated : Bool} {operand low high : Expr} : Grammatical v operand →
      Grammatical v low → Grammatical v high → Grammatical v (.between negated operand low high)

/-- A tree that some reader made. -/
abbrev IsRead (e : Expr) : Prop := Grammatical .any e

/-! ## The vocabulary of a tree -/

theorem subtermsOfList_eq (items : List Expr) :
    subtermsOfList items = items.flatMap subterms := by
  induction items with
  | nil => rfl
  | cons e rest ih => rw [subtermsOfList, ih, List.flatMap_cons]

theorem subtermsOfOption_eq (e : Option Expr) : subtermsOfOption e = e.toList.flatMap subterms := by
  cases e with
  | none => rfl
  | some e => simp [subtermsOfOption]

theorem subtermsOfBranches_eq (branches : List (Expr × Expr)) :
    subtermsOfBranches branches = branches.flatMap fun b => b.1.subterms ++ b.2.subterms := by
  induction branches with
  | nil => rfl
  | cons b rest ih => rw [subtermsOfBranches, ih, List.flatMap_cons]

/-- The vocabulary has the column, the call or the constant at the top of the tree. -/
def Vocabulary.Has (v : Vocabulary) : Expr → Prop
  | .column name => v.column name
  | .literal value => v.literal value
  | .call name args => v.call name args
  | _ => True

/-- The vocabulary has all columns, calls and constants of the tree. -/
def Vocabulary.Spells (v : Vocabulary) (e : Expr) : Prop :=
  ∀ t ∈ e.subterms, v.Has t

/-- A tree of the grammar is one over any vocabulary that has what occurs in it. -/
theorem Grammatical.of_spells {u v : Vocabulary} {e : Expr} (h : Grammatical u e)
    (hv : v.Spells e) : Grammatical v e := by
  induction h with
  | column _ => exact .column (hv _ (self_mem_subterms _))
  | literal _ => exact .literal (hv _ (self_mem_subterms _))
  | binary h₁ h₂ _ _ ihl ihr =>
    refine .binary h₁ h₂ (ihl fun t ht => hv t ?_) (ihr fun t ht => hv t ?_)
    all_goals simp [subterms, ht]
  | membership _ _ ihl ihi =>
    refine .membership (ihl fun t ht => hv t ?_) fun e he => ihi e he fun t ht => hv t ?_
    · simp [subterms, ht]
    · simp only [subterms, subtermsOfList_eq, List.mem_cons, List.mem_append, List.mem_flatMap]
      exact Or.inr (Or.inr (Or.inr ⟨e, he, ht⟩))
  | unary h₁ _ ih => exact .unary h₁ (ih fun t ht => hv t (by simp [subterms, ht]))
  | call _ _ ih =>
    refine .call (hv _ (self_mem_subterms _)) fun e he => ih e he fun t ht => hv t ?_
    rw [subterms, subtermsOfList_eq]
    exact List.mem_cons_of_mem _ (List.mem_flatMap.2 ⟨e, he, ht⟩)
  | cases hne _ _ _ _ iho ihc ihr ihe =>
    refine .cases hne (fun e he => iho e he fun t ht => hv t ?_)
      (fun b hb => ihc b hb fun t ht => hv t ?_) (fun b hb => ihr b hb fun t ht => hv t ?_)
      fun e he => ihe e he fun t ht => hv t ?_
    all_goals
      simp only [subterms, subtermsOfOption_eq, subtermsOfBranches_eq, List.mem_cons,
        List.mem_append, List.mem_flatMap, Option.mem_toList]
    · exact Or.inr (Or.inl (Or.inl ⟨e, he, ht⟩))
    · exact Or.inr (Or.inl (Or.inr ⟨b, hb, Or.inl ht⟩))
    · exact Or.inr (Or.inl (Or.inr ⟨b, hb, Or.inr ht⟩))
    · exact Or.inr (Or.inr ⟨e, he, ht⟩)
  | between _ _ _ ih₁ ih₂ ih₃ =>
    refine .between (ih₁ fun t ht => hv t ?_) (ih₂ fun t ht => hv t ?_)
      (ih₃ fun t ht => hv t ?_)
    all_goals simp [subterms, ht]

/-- A tree over a vocabulary is one over a larger vocabulary. -/
theorem Grammatical.mono {u v : Vocabulary} (hcolumn : ∀ name, u.column name → v.column name)
    (hcall : ∀ name args, u.call name args → v.call name args)
    (hliteral : ∀ value, u.literal value → v.literal value) {e : Expr} (h : Grammatical u e) :
    Grammatical v e := by
  induction h with
  | column h => exact .column (hcolumn _ h)
  | literal h => exact .literal (hliteral _ h)
  | binary h₁ h₂ _ _ ihl ihr => exact .binary h₁ h₂ ihl ihr
  | membership _ _ ihl ihi => exact .membership ihl ihi
  | unary h _ ih => exact .unary h ih
  | call h _ ih => exact .call (hcall _ _ h) ih
  | cases hne _ _ _ _ iho ihc ihr ihe => exact .cases hne iho ihc ihr ihe
  | between _ _ _ ih₁ ih₂ ih₃ => exact .between ih₁ ih₂ ih₃

/-! ## Readers -/

/-- The vocabulary has what the symbols spell, and the negatives of its numbers. -/
structure Vocabulary.Covers (v : Vocabulary) (ls : List Symbol) : Prop where
  text {s : String} : .text s ∈ ls → v.literal (.text s)
  keyword {kind : TokenKind} {value : Literal} : keyword? kind = some value → v.literal value
  number {s : String} {value : Literal} : .number s ∈ ls → numberLiteral? s = some value →
    v.literal value
  integer {n : Int64} : v.literal (.integer n) → v.literal (.integer (-n))
  float {x : Double} : v.literal (.float x) → v.literal (.float (-x))
  column {name : String} {segments : List String} : .name name ∈ ls →
    (∀ s ∈ segments, .name s ∈ ls) → v.column (dotted name segments)
  call {name : String} (args : List Expr) : .name name ∈ ls → v.call name args

theorem Vocabulary.Covers.mono {v : Vocabulary} {ls ls' : List Symbol} (h : v.Covers ls)
    (hsub : ls' ⊆ ls) : v.Covers ls' where
  text hs := h.text (hsub hs)
  keyword := h.keyword
  number hs := h.number (hsub hs)
  integer := h.integer
  float := h.float
  column hn hs := h.column (hsub hn) fun s hmem => hsub (hs s hmem)
  call args hn := h.call args (hsub hn)

theorem Vocabulary.any_covers (ls : List Symbol) : Vocabulary.any.Covers ls := by
  constructor <;> intros <;> trivial

theorem Grammatical.negated {v : Vocabulary} {ls : List Symbol} (hv : v.Covers ls) {e : Expr}
    (h : Grammatical v e) : Grammatical v e.negated := by
  unfold Expr.negated
  split
  · cases h with
    | literal hn => exact .literal (hv.integer hn)
  · cases h with
    | literal hx => exact .literal (hv.float hx)
  · next hint hfloat =>
    refine .unary ⟨nofun, fun _ => ?_⟩ h
    unfold isNumber
    split
    · next n => exact absurd rfl (hint n)
    · next x => exact absurd rfl (hfloat x)
    · rfl

theorem subset_separated {items : List Phrase} {i : Phrase} (hi : i ∈ items) :
    i.1 ⊆ separated items := by
  induction items with
  | nil => cases hi
  | cons p ps ih =>
    cases ps with
    | nil =>
      rw [List.mem_singleton.1 hi, separated_singleton]
      exact List.Subset.refl _
    | cons q qs =>
      rw [separated_cons]
      rcases List.mem_cons.1 hi with rfl | hi
      · exact List.subset_append_left _ _
      · exact List.subset_append_of_subset_right _ (List.subset_cons_of_subset _ (ih hi))

theorem subset_branchSymbols {branches : List (Phrase × Phrase)} {b : Phrase × Phrase}
    (hb : b ∈ branches) : b.1.1 ⊆ branchSymbols branches ∧ b.2.1 ⊆ branchSymbols branches := by
  unfold branchSymbols
  constructor <;> intro s hs <;> refine List.mem_flatMap.2 ⟨b, hb, ?_⟩
  · simp [hs]
  · simp [hs]

theorem subset_otherwiseSymbols {otherwise : Option Phrase} {p : Phrase} (hp : p ∈ otherwise) :
    p.1 ⊆ otherwiseSymbols otherwise := by
  obtain rfl := hp
  simp [otherwiseSymbols]

/-- **What the grammar derives** is a tree over any vocabulary that covers the symbols. -/
theorem Derives.grammatical {v : Vocabulary} {level : Level} {ls : List Symbol} {e : Expr}
    (h : Derives level ls e) (hv : v.Covers ls) : Grammatical v e := by
  have hright : ∀ {a b c : List Symbol}, a ⊆ b → a ⊆ c ++ b := fun hab =>
    List.subset_append_of_subset_right _ hab
  have hcons : ∀ {a b : List Symbol} {s : Symbol}, a ⊆ b → a ⊆ s :: b := fun hab =>
    List.subset_cons_of_subset _ hab
  induction h with
  | next _ ih => exact ih hv
  | chain hop _ _ ihl ihr =>
    refine .binary ?_ ?_ (ihl (hv.mono (List.subset_append_left _ _)))
      (ihr (hv.mono (hright (List.subset_cons_self _ _))))
    all_goals
      rintro rfl
      unfold Level.operator? at hop
      split at hop <;> cases hop
  | not _ ih => exact .unary ⟨nofun, nofun⟩ (ih (hv.mono (List.subset_cons_self _ _)))
  | comparison hop _ _ ihl ihr =>
    refine .binary ?_ ?_ (ihl (hv.mono (List.subset_append_left _ _)))
      (ihr (hv.mono (hright (List.subset_cons_self _ _))))
    all_goals
      rintro rfl
      unfold comparisonOf? at hop
      split at hop <;> cases hop
  | notLike _ _ ihl ihr =>
    exact .binary nofun nofun (ihl (hv.mono (List.subset_append_left _ _)))
      (ihr (hv.mono (hright (hcons (List.subset_cons_self _ _)))))
  | nullTest negated _ ih =>
    refine .unary ?_ (ih (hv.mono (List.subset_append_left _ _)))
    cases negated <;> exact ⟨nofun, nofun⟩
  | membership negated _ _ ihl ihi =>
    refine .membership (ihl (hv.mono (List.subset_append_left _ _)))
      (List.forall_mem_map.2 fun i hi => ihi i hi (hv.mono ?_))
    exact hright (hright (hcons (hcons (List.subset_append_of_subset_left _
      (subset_separated hi)))))
  | between negated _ _ _ ihe ihl ihh =>
    refine .between (ihe (hv.mono (List.subset_append_left _ _))) (ihl (hv.mono ?_))
      (ihh (hv.mono ?_))
    · exact hright (hright (hcons (List.subset_append_left _ _)))
    · exact hright (hright (hcons (hright (List.subset_cons_self _ _))))
  | minus _ ih => exact (ih (hv.mono (List.subset_cons_self _ _))).negated hv
  | plus _ ih => exact ih (hv.mono (List.subset_cons_self _ _))
  | text s => exact .literal (hv.text List.mem_cons_self)
  | keyword h => exact .literal (hv.keyword h)
  | number h => exact .literal (hv.number List.mem_cons_self h)
  | column name segments =>
    exact .column (hv.column List.mem_cons_self fun s hs => by simp [hs])
  | call name _ ih =>
    refine .call (hv.call _ List.mem_cons_self)
      (List.forall_mem_map.2 fun a ha => ih a ha (hv.mono ?_))
    exact hcons (hcons (List.subset_append_of_subset_left _ (subset_separated ha)))
  | star name => exact .call (hv.call _ List.mem_cons_self) nofun
  | paren _ ih => exact ih (hv.mono (hcons (List.subset_append_left _ _)))
  | @cases operand otherwise branches hne _ _ _ _ iho ihc ihr ihe =>
    refine .cases (by simpa using hne) ?_ (List.forall_mem_map.2 fun b hb => ?_)
      (List.forall_mem_map.2 fun b hb => ?_) ?_
    · rintro e he
      obtain ⟨p, rfl, rfl⟩ := Option.map_eq_some_iff.1 he
      exact iho p rfl (hv.mono (hcons (List.subset_append_left _ _)))
    · exact ihc b hb (hv.mono (hcons (hright (List.subset_append_of_subset_left _
        (subset_branchSymbols hb).1))))
    · exact ihr b hb (hv.mono (hcons (hright (List.subset_append_of_subset_left _
        (subset_branchSymbols hb).2))))
    · rintro e he
      obtain ⟨p, rfl, rfl⟩ := Option.map_eq_some_iff.1 he
      exact ihe p rfl (hv.mono (hcons (hright (hright (subset_otherwiseSymbols rfl)))))

theorem readAt_isRead {nesting : CaseNesting} {level : Level} {ts : List Token} {e : Expr}
    {rest : { rest : List Token // rest.length < ts.length }}
    (h : readAt nesting level ts = .ok (e, rest)) : IsRead e := by
  obtain ⟨ls, -, hd⟩ := readAt_derives h
  exact hd.grammatical (Vocabulary.any_covers ls)

end Expr

/-! ## Queries -/

namespace Query

open StreamSql.Expr Token

/-- The expressions of a query, clause by clause. -/
def expressions (q : Query) : List Expr :=
  q.selected ++ q.condition.toList ++ q.groupBy ++ q.having.toList

theorem readField_isRead {ts : List Token} {field : SelectField}
    {rest : { rest : List Token // rest.length < ts.length }}
    (h : readField ts = .ok (field, rest)) : ∀ e ∈ field.expression?, IsRead e := by
  unfold readField at h
  split at h
  · cases h
    rintro e ⟨⟩
  · obtain ⟨⟨e, rest', h'⟩, hread, h⟩ := bind_eq_ok.1 h
    obtain ⟨⟨alias?, rest'', h''⟩, halias, h⟩ := bind_eq_ok.1 h
    cases h
    rintro _ ⟨⟩
    exact readAt_isRead hread

theorem readFields_isRead {ts : List Token} {fields : List SelectField}
    {rest : { rest : List Token // rest.length < ts.length }}
    (h : readFields ts = .ok (fields, rest)) :
    ∀ e ∈ fields.filterMap SelectField.expression?, IsRead e := by
  unfold readFields at h
  obtain ⟨⟨field, rest', h'⟩, hread, h⟩ := bind_eq_ok.1 h
  have hfield := readField_isRead hread
  simp only at h
  intro e he
  split at h
  · obtain ⟨⟨more, rest'', h''⟩, hmore, h⟩ := bind_eq_ok.1 h
    cases h
    obtain ⟨f, hf, hfe⟩ := List.mem_filterMap.1 he
    rcases List.mem_cons.1 hf with hf | hf
    · exact hfield e (hf ▸ hfe)
    · exact readFields_isRead hmore e (List.mem_filterMap.2 ⟨f, hf, hfe⟩)
  · cases h
    obtain ⟨f, hf, hfe⟩ := List.mem_filterMap.1 he
    exact hfield e (List.mem_singleton.1 hf ▸ hfe)
termination_by ts.length

theorem add_isRead {g g' : Grouping} {position : Nat} {e : Expr}
    (hg : ∀ e ∈ g.expressions, IsRead e) (he : IsRead e) (h : g.add position e = .ok g') :
    ∀ e ∈ g'.expressions, IsRead e := by
  have happend : ∀ a ∈ g.expressions ++ [e], IsRead a := fun a ha =>
    (List.mem_append.1 ha).elim (hg a) fun ha => List.mem_singleton.1 ha ▸ he
  unfold Grouping.add at h
  split at h
  · split at h
    · split at h
      · cases h
      · obtain ⟨spec, hspec, h⟩ := bind_eq_ok.1 h
        cases h
        exact hg
    · cases h
      exact happend
  · cases h
    exact happend

theorem readGrouping_isRead {g g' : Grouping} {ts : List Token}
    {rest : { rest : List Token // rest.length < ts.length }}
    (hg : ∀ e ∈ g.expressions, IsRead e) (h : readGrouping g ts = .ok (g', rest)) :
    ∀ e ∈ g'.expressions, IsRead e := by
  unfold readGrouping at h
  obtain ⟨⟨e, rest', h'⟩, hread, h⟩ := bind_eq_ok.1 h
  obtain ⟨g₁, hadd, h⟩ := bind_eq_ok.1 h
  have hg₁ := add_isRead hg (readAt_isRead hread) hadd
  simp only at h
  split at h
  · obtain ⟨⟨g₂, rest'', h''⟩, hmore, h⟩ := bind_eq_ok.1 h
    cases h
    exact readGrouping_isRead hg₁ hmore
  · cases h
    exact hg₁
termination_by ts.length

theorem readGroupBy_isRead {g : Grouping} {ts rest : List Token}
    (h : readGroupBy ts = .ok (g, rest)) : ∀ e ∈ g.expressions, IsRead e := by
  unfold readGroupBy at h
  split at h
  · cases h
    exact nofun
  · obtain ⟨⟨_, rest₁⟩, hby, h⟩ := bind_eq_ok.1 h
    obtain ⟨⟨g', rest₂⟩, hread, h⟩ := bind_eq_ok.1 h
    cases h
    exact readGrouping_isRead (g := {}) nofun hread

theorem readClause_isRead {keyword : TokenKind} {ts rest : List Token} {clause : Option Expr}
    (h : readClause keyword ts = .ok (clause, rest)) : ∀ e ∈ clause, IsRead e := by
  unfold readClause at h
  split at h
  · cases h
    rintro e ⟨⟩
  · obtain ⟨⟨e, rest'⟩, hread, h⟩ := bind_eq_ok.1 h
    cases h
    rintro _ ⟨⟩
    exact readAt_isRead hread

/-- **All expressions of a query** that was read are trees of the grammar. -/
theorem parse_isRead {text : String} {q : Query} (h : parse text = .ok q) :
    ∀ e ∈ q.expressions, IsRead e := by
  obtain ⟨ts, htokens, h⟩ := bind_eq_ok.1 h
  obtain ⟨⟨_, ts₁⟩, -, h⟩ := bind_eq_ok.1 h
  obtain ⟨⟨fields, ts₂⟩, hfields, h⟩ := bind_eq_ok.1 h
  obtain ⟨⟨_, ts₃⟩, -, h⟩ := bind_eq_ok.1 h
  obtain ⟨⟨_, ts₄⟩, -, h⟩ := bind_eq_ok.1 h
  obtain ⟨⟨_, ts₅⟩, -, h⟩ := bind_eq_ok.1 h
  obtain ⟨⟨condition, ts₆⟩, hcondition, h⟩ := bind_eq_ok.1 h
  obtain ⟨⟨grouping, ts₇⟩, hgrouping, h⟩ := bind_eq_ok.1 h
  obtain ⟨⟨having, ts₈⟩, hhaving, h⟩ := bind_eq_ok.1 h
  obtain ⟨⟨_, ts₉⟩, -, h⟩ := bind_eq_ok.1 h
  obtain ⟨⟨_, ts₁₀⟩, -, h⟩ := bind_eq_ok.1 h
  obtain ⟨_, -, h⟩ := bind_eq_ok.1 h
  cases h
  intro e he
  simp only [expressions, selected, List.mem_append, Option.mem_toList] at he
  rcases he with ((he | he) | he) | he
  · exact readFields_isRead hfields e he
  · exact readClause_isRead hcondition e he
  · exact readGroupBy_isRead hgrouping e he
  · exact readClause_isRead hhaving e he

end Query

end StreamSql
