/-
  Which aggregate calls of a query share a slot.

  A plan has each aggregate call of its query replaced by the slot of the text of the call, and
  nothing else changed (`outputs`, `having` of `SharesByText`).  So two calls share a slot exactly if
  their texts agree, and the slot computes the first call of this text.  Where names need no quotes
  and floats are finite the text tells the call, so that only identical calls share; a quoted name
  can spell the text of an expression, and then different calls do
  (`build_shares_by_text_quoted`).

  * `Expr.replace`: an expression with some of its calls replaced;
  * `Places`: what a step of the extraction does to the table of slots;
  * `extract_places`: the extraction replaces each aggregate call by the slot of its text;
  * `Plan.build_shares_by_text`: the same of all columns and HAVING.
-/
import StreamSql.Proofs.Meaning

namespace StreamSql

open StreamSql.Expr

/-! ## Replacing calls -/

namespace Expr

mutual

/-- The expression with the calls replaced for which there is a replacement; what stands inside
    such a call is gone with it. -/
def replace (f : String → List Expr → Option Expr) : Expr → Expr
  | .call name args => (f name args).getD (.call name (replaceList f args))
  | .binary op left right => .binary op (left.replace f) (right.replace f)
  | .unary op operand => .unary op (operand.replace f)
  | .cases operand branches otherwise =>
    .cases (replaceOption f operand) (replaceBranches f branches) (replaceOption f otherwise)
  | .list items => .list (replaceList f items)
  | .between negated operand low high =>
    .between negated (operand.replace f) (low.replace f) (high.replace f)
  | .column name => .column name
  | .literal value => .literal value
  | .slot index => .slot index

/-- The items with calls replaced. -/
def replaceList (f : String → List Expr → Option Expr) : List Expr → List Expr
  | [] => []
  | e :: rest => e.replace f :: replaceList f rest

/-- An optional expression with calls replaced. -/
def replaceOption (f : String → List Expr → Option Expr) : Option Expr → Option Expr
  | none => none
  | some e => some (e.replace f)

/-- The branches with calls replaced. -/
def replaceBranches (f : String → List Expr → Option Expr) :
    List (Expr × Expr) → List (Expr × Expr)
  | [] => []
  | (condition, result) :: rest => (condition.replace f, result.replace f) :: replaceBranches f rest

end

/-- The expressions directly inside an expression, in order. -/
def parts : Expr → List Expr
  | .column _ | .literal _ | .slot _ => []
  | .binary _ left right => [left, right]
  | .unary _ operand => [operand]
  | .call _ args => args
  | .cases operand branches otherwise =>
    operand.toList ++ (branches.flatMap fun b => [b.1, b.2]) ++ otherwise.toList
  | .list items => items
  | .between _ operand low high => [operand, low, high]

theorem subterms_eq (e : Expr) : e.subterms = e :: e.parts.flatMap subterms := by
  cases e <;> simp [subterms, parts, subtermsOfList_eq, subtermsOfOption_eq,
    subtermsOfBranches_eq, List.flatMap_assoc]

/-- What is true of a tree and of everything in its parts is true of all its subterms. -/
theorem forall_subterms {P : Expr → Prop} {e : Expr} (he : P e)
    (hparts : ∀ a ∈ e.parts, ∀ t ∈ a.subterms, P t) : ∀ t ∈ e.subterms, P t := by
  rw [subterms_eq]
  intro t ht
  rcases List.mem_cons.1 ht with rfl | ht
  · exact he
  · obtain ⟨a, ha, ht⟩ := List.mem_flatMap.1 ht
    exact hparts a ha t ht

theorem forall_parts_cases {P : Expr → Prop} {operand otherwise : Option Expr}
    {branches : List (Expr × Expr)} (ho : ∀ e ∈ operand, P e) (hc : ∀ b ∈ branches, P b.1)
    (hr : ∀ b ∈ branches, P b.2) (he : ∀ e ∈ otherwise, P e) :
    ∀ a ∈ (Expr.cases operand branches otherwise).parts, P a := by
  intro a ha
  simp only [parts, List.mem_append, Option.mem_toList, List.mem_flatMap, List.mem_cons,
    List.not_mem_nil, or_false] at ha
  rcases ha with (ha | ⟨b, hb, rfl | rfl⟩) | ha
  · exact ho a ha
  · exact hc b hb
  · exact hr b hb
  · exact he a ha

/-- The aggregate calls of an expression, the outer ones first. -/
def aggregates (r : Registry) (e : Expr) : List (String × List Expr) :=
  e.calls.filter fun c => r.isAggregate c.1

/-- What is found in the subterms of an expression is found in it or in its parts. -/
theorem filterMap_subterms_eq {α : Type} (f : Expr → Option α) (e : Expr) :
    e.subterms.filterMap f = (f e).toList ++ e.parts.flatMap fun a => a.subterms.filterMap f := by
  rw [subterms_eq, ← List.singleton_append, List.filterMap_append, List.filterMap_flatMap]
  refine congrArg (· ++ _) ?_
  cases h : f e <;> simp [h]

theorem calls_eq (e : Expr) : e.calls = e.call?.toList ++ e.parts.flatMap calls :=
  filterMap_subterms_eq call? e

theorem aggregates_eq (r : Registry) (e : Expr) : e.aggregates r =
    (e.call?.toList.filter fun c => r.isAggregate c.1) ++ e.parts.flatMap (aggregates r) := by
  rw [aggregates, calls_eq, List.filter_append, List.filter_flatMap]
  rfl

/-- No aggregate call stands inside another one. -/
def Flat (r : Registry) (e : Expr) : Prop :=
  ∀ c ∈ e.aggregates r, ∀ arg ∈ c.2, arg.aggregates r = []

theorem Flat.part {r : Registry} {e : Expr} (h : e.Flat r) {a : Expr} (ha : a ∈ e.parts) :
    a.Flat r := fun c hc => h c (by
  rw [aggregates_eq]
  exact List.mem_append_right _ (List.mem_flatMap.2 ⟨a, ha, hc⟩))

end Expr

/-- The aggregate calls in SELECT and HAVING. -/
def Query.aggregates (q : Query) (r : Registry) : List (String × List Expr) :=
  (q.selected ++ q.having.toList).flatMap (Expr.aggregates r)

/-- The index of the first slot with the text of a call. -/
def slotIndex (slots : List Slot) (name : String) (args : List Expr) : Nat :=
  slots.findIdx fun s => s.signature = signatureOf name args

/-- The reference that takes the place of an aggregate call. -/
def slotFor (r : Registry) (slots : List Slot) (name : String) (args : List Expr) : Option Expr :=
  if r.isAggregate name then some (.slot (slotIndex slots name args)) else none

/-- The column of a plan for a column of the query, given what replaces its calls. -/
def Output.ofField (f : String → List Expr → Option Expr) : SelectField → Output
  | .wildcard => .wildcard
  | .column e alias? => .column (SelectField.column e alias?).outputName (.ofExpr (e.replace f))

/-! ## Extraction -/

/-- A step of the extraction: the table of slots only grows at its end, by slots of these calls;
    every call finds a slot of its text; and `P` holds of each table that begins like this. -/
structure Places (r : Registry) (slots slots' : List Slot) (calls : List (String × List Expr))
    (P : List Slot → Prop) : Prop where
  grows : slots <+: slots'
  origin : ∀ s ∈ slots', s ∈ slots ∨ ∃ c ∈ calls, s.Answers r c.1 c.2
  found : ∀ c ∈ calls, ∃ s ∈ slots', s.signature = signatureOf c.1 c.2
  holds : ∀ table, slots' <+: table → P table

namespace Places

variable {r : Registry} {slots slots' slots'' : List Slot} {calls more : List (String × List Expr)}
  {P Q R : List Slot → Prop}

/-- Nothing is replaced. -/
theorem refl (h : ∀ table, P table) : Places r slots slots [] P :=
  ⟨List.prefix_refl _, fun _ hs => Or.inl hs, nofun, fun table _ => h table⟩

/-- One step behind another, and what follows from both. -/
theorem append (h : Places r slots slots' calls P) (h' : Places r slots' slots'' more Q)
    (hpq : ∀ table, P table → Q table → R table) : Places r slots slots'' (calls ++ more) R where
  grows := h.grows.trans h'.grows
  origin s hs := by
    rcases h'.origin s hs with hs | ⟨c, hc, ha⟩
    · exact (h.origin s hs).imp_right fun ⟨c, hc, ha⟩ => ⟨c, List.mem_append_left _ hc, ha⟩
    · exact Or.inr ⟨c, List.mem_append_right _ hc, ha⟩
  found c hc := by
    rcases List.mem_append.1 hc with hc | hc
    · obtain ⟨s, hs, ht⟩ := h.found c hc
      exact ⟨s, h'.grows.subset hs, ht⟩
    · exact h'.found c hc
  holds table ht := hpq table (h.holds table (h'.grows.trans ht)) (h'.holds table ht)

theorem imp (h : Places r slots slots' calls P) (hpq : ∀ table, P table → Q table) :
    Places r slots slots' calls Q :=
  ⟨h.grows, h.origin, h.found, fun table ht => hpq table (h.holds table ht)⟩

end Places

/-- The first slot of a text stays the first one when the table grows. -/
theorem slotIndex_of_found {slots table : List Slot} (ht : slots <+: table) {name : String}
    {args : List Expr} (h : ∃ s ∈ slots, s.signature = signatureOf name args) :
    slotIndex table name args = slotIndex slots name args := by
  obtain ⟨rest, rfl⟩ := ht
  obtain ⟨s, hs, hsig⟩ := h
  rw [slotIndex, List.findIdx_append,
    if_pos (List.findIdx_lt_length.2 ⟨s, hs, decide_eq_true hsig⟩)]
  rfl

/-- The slot that takes the place of an aggregate call is the first one of its text. -/
theorem slotOf_places {r : Registry} {slots slots' : List Slot} {f : AggregateFunction}
    {name : String} {args : List Expr} {e : Expr} (hf : r.aggregate? name = some f)
    (h : slotOf r f name args slots = .ok (e, slots')) :
    Places r slots slots' [(name, args)] (fun table => e = .slot (slotIndex table name args)) := by
  unfold slotOf at h
  simp only at h
  split at h
  · next i hi =>
    cases h
    obtain ⟨hlt, hsig, -⟩ := List.findIdx?_eq_some_iff_getElem.1 hi
    have hfound : ∃ s ∈ slots, s.signature = signatureOf name args :=
      ⟨_, List.getElem_mem hlt, of_decide_eq_true hsig⟩
    refine ⟨List.prefix_refl _, fun _ hs => Or.inl hs, List.forall_mem_singleton.2 hfound,
      fun table ht => ?_⟩
    rw [slotIndex_of_found ht hfound]
    exact congrArg Expr.slot (List.findIdx?_eq_some_iff_findIdx_eq.1 hi).2.symm
  · next hi =>
    obtain ⟨parameters, hparameters, h⟩ := bind_eq_ok.1 h
    cases h
    let s : Slot := ⟨Text.upper name, args.head?.map Compiled.ofExpr, parameters,
      signatureOf name args, f⟩
    have hanswers : s.Answers r name args := ⟨hf, rfl, parameterValues_rename hparameters, rfl⟩
    have hnone : ¬ slots.findIdx (fun s => s.signature = signatureOf name args) < slots.length :=
      fun hlt => by
        obtain ⟨t, ht, hsig⟩ := List.findIdx_lt_length.1 hlt
        rw [List.findIdx?_eq_none_iff.1 hi t ht] at hsig
        cases hsig
    have hfound : ∃ t ∈ slots ++ [s], t.signature = signatureOf name args := ⟨s, by simp, rfl⟩
    refine ⟨List.prefix_append _ _, fun t ht => ?_, List.forall_mem_singleton.2 hfound,
      fun table ht => ?_⟩
    · rcases List.mem_append.1 ht with ht | ht
      · exact Or.inl ht
      · rw [List.mem_singleton.1 ht]
        exact Or.inr ⟨_, List.mem_singleton_self _, hanswers⟩
    · rw [slotIndex_of_found ht hfound, slotIndex, List.findIdx_append, if_neg hnone]
      simp [List.findIdx_cons]

/-! ## Expressions -/

section

variable {r : Registry}

/-- The extraction replaces each aggregate call by the slot of its text. -/
def Placed (r : Registry) (e : Expr) : Prop :=
  ∀ {slots slots' : List Slot} {e' : Expr}, e.Flat r → e.extract r slots = .ok (e', slots') →
    Places r slots slots' (e.aggregates r) (fun table => e' = e.replace (slotFor r table))

theorem extractList_places {items : List Expr} (h : ∀ e ∈ items, Placed r e)
    (hflat : ∀ e ∈ items, e.Flat r) {slots slots' : List Slot} {items' : List Expr}
    (he : extractList r slots items = .ok (items', slots')) :
    Places r slots slots' (items.flatMap (Expr.aggregates r))
      (fun table => items' = replaceList (slotFor r table) items) := by
  induction items generalizing slots items' with
  | nil =>
    unfold extractList at he
    cases he
    exact .refl fun _ => by rw [replaceList]
  | cons e rest ih =>
    unfold extractList at he
    obtain ⟨⟨e', slots₁⟩, hfirst, he⟩ := bind_eq_ok.1 he
    obtain ⟨⟨rest', slots₂⟩, hrest, he⟩ := bind_eq_ok.1 he
    cases he
    have hhead := h e List.mem_cons_self (hflat e List.mem_cons_self) hfirst
    have htail := ih (fun a ha => h a (List.mem_cons_of_mem _ ha))
      (fun a ha => hflat a (List.mem_cons_of_mem _ ha)) hrest
    exact hhead.append htail fun table he hes => by rw [replaceList, he, hes]

theorem extractOption_places {e : Option Expr} (h : ∀ a ∈ e, Placed r a)
    (hflat : ∀ a ∈ e, a.Flat r) {slots slots' : List Slot} {e' : Option Expr}
    (he : extractOption r slots e = .ok (e', slots')) :
    Places r slots slots' (e.toList.flatMap (Expr.aggregates r))
      (fun table => e' = replaceOption (slotFor r table) e) := by
  unfold extractOption at he
  cases e with
  | none =>
    cases he
    exact .refl fun _ => by rw [replaceOption]
  | some a =>
    obtain ⟨⟨a', slots₁⟩, ha, he⟩ := bind_eq_ok.1 he
    cases he
    simpa [replaceOption] using h a rfl (hflat a rfl) ha

theorem extractBranches_places {branches : List (Expr × Expr)}
    (hc : ∀ b ∈ branches, Placed r b.1) (hr : ∀ b ∈ branches, Placed r b.2)
    (hflat : ∀ b ∈ branches, b.1.Flat r ∧ b.2.Flat r) {slots slots' : List Slot}
    {branches' : List (Expr × Expr)}
    (he : extractBranches r slots branches = .ok (branches', slots')) :
    Places r slots slots' (branches.flatMap fun b => b.1.aggregates r ++ b.2.aggregates r)
      (fun table => branches' = replaceBranches (slotFor r table) branches) := by
  induction branches generalizing slots branches' with
  | nil =>
    unfold extractBranches at he
    cases he
    exact .refl fun _ => by rw [replaceBranches]
  | cons b rest ih =>
    unfold extractBranches at he
    obtain ⟨⟨condition, slots₁⟩, hcondition, he⟩ := bind_eq_ok.1 he
    obtain ⟨⟨result, slots₂⟩, hresult, he⟩ := bind_eq_ok.1 he
    obtain ⟨⟨rest', slots₃⟩, hrest, he⟩ := bind_eq_ok.1 he
    cases he
    obtain ⟨hflat₁, hflat₂⟩ := hflat b List.mem_cons_self
    have h₁ := hc b List.mem_cons_self hflat₁ hcondition
    have h₂ := hr b List.mem_cons_self hflat₂ hresult
    have h₃ := ih (fun a ha => hc a (List.mem_cons_of_mem _ ha))
      (fun a ha => hr a (List.mem_cons_of_mem _ ha))
      (fun a ha => hflat a (List.mem_cons_of_mem _ ha)) hrest
    exact (h₁.append h₂ fun _ => And.intro).append h₃ fun table hboth hall => by
      rw [replaceBranches, hboth.1, hboth.2, hall]

/-- **The extraction** replaces each aggregate call by the slot of its text. -/
theorem extract_places {e : Expr} (he : IsRead e) : Placed r e := by
  induction he with
  | column =>
    intro slots slots' e' _ h
    unfold extract at h
    cases h
    exact .refl fun _ => by rw [replace]
  | literal =>
    intro slots slots' e' _ h
    unfold extract at h
    cases h
    exact .refl fun _ => by rw [replace]
  | @binary op left right _ _ _ _ ihl ihr =>
    intro slots slots' e' hflat h
    unfold extract at h
    obtain ⟨⟨left', slots₁⟩, hl, h⟩ := bind_eq_ok.1 h
    obtain ⟨⟨right', slots₂⟩, hr, h⟩ := bind_eq_ok.1 h
    cases h
    have h₁ := ihl (hflat.part (by simp [parts])) hl
    have h₂ := ihr (hflat.part (by simp [parts])) hr
    rw [aggregates_eq]
    simpa [call?, parts, replace] using h₁.append h₂ fun _ => And.intro
  | @membership negated left items _ _ ihl ihi =>
    intro slots slots' e' hflat h
    unfold extract at h
    obtain ⟨⟨left', slots₁⟩, hl, h⟩ := bind_eq_ok.1 h
    obtain ⟨⟨list, slots₂⟩, hlist, h⟩ := bind_eq_ok.1 h
    cases h
    unfold extract at hlist
    obtain ⟨⟨items', slots₃⟩, hitems, hlist⟩ := bind_eq_ok.1 hlist
    cases hlist
    have hlist : (Expr.list items).Flat r := hflat.part (by simp [parts])
    have h₁ := ihl (hflat.part (by simp [parts])) hl
    have h₂ := extractList_places ihi (fun _ => hlist.part) hitems
    rw [aggregates_eq]
    simpa [membership, call?, parts, replace, aggregates_eq r (.list items)] using
      h₁.append h₂ fun _ => And.intro
  | @unary op operand _ _ ih =>
    intro slots slots' e' hflat h
    unfold extract at h
    obtain ⟨⟨operand', slots₁⟩, ho, h⟩ := bind_eq_ok.1 h
    cases h
    rw [aggregates_eq]
    simpa [call?, parts, replace] using ih (hflat.part (by simp [parts])) ho
  | @call name args hname hargs ih =>
    intro slots slots' e' hflat h
    unfold extract at h
    cases hf : r.aggregate? name with
    | some f =>
      rw [hf] at h
      have hname : r.isAggregate name = true := by rw [Registry.isAggregate, hf]; rfl
      have hself : (name, args) ∈ (call name args).aggregates r := by
        rw [aggregates_eq]
        simp [call?, hname]
      -- inside the call there are no more of them
      have hinner : args.flatMap (Expr.aggregates r) = [] :=
        List.flatMap_eq_nil_iff.2 (hflat _ hself)
      rw [aggregates_eq]
      simpa [call?, parts, hname, hinner, replace, slotFor] using slotOf_places hf h
    | none =>
      rw [hf] at h
      obtain ⟨⟨args', slots₁⟩, ha, h⟩ := bind_eq_ok.1 h
      cases h
      have hname : r.isAggregate name = false := by rw [Registry.isAggregate, hf]; rfl
      rw [aggregates_eq]
      simpa [call?, parts, hname, replace, slotFor] using
        extractList_places ih (fun _ => hflat.part) ha
  | @cases operand otherwise branches _ _ _ _ _ iho ihc ihr ihe =>
    intro slots slots' e' hflat h
    unfold extract at h
    obtain ⟨⟨operand', slots₁⟩, ho, h⟩ := bind_eq_ok.1 h
    obtain ⟨⟨branches', slots₂⟩, hb, h⟩ := bind_eq_ok.1 h
    obtain ⟨⟨otherwise', slots₃⟩, he, h⟩ := bind_eq_ok.1 h
    cases h
    have hpart : ∀ a, a ∈ operand ∨ (∃ b ∈ branches, a = b.1 ∨ a = b.2) ∨ a ∈ otherwise → a.Flat r :=
      fun a ha => hflat.part (by simpa [parts] using ha)
    have h₁ := extractOption_places iho (fun a ha => hpart a (Or.inl ha)) ho
    have h₂ := extractBranches_places ihc ihr (fun b hb =>
      ⟨hpart _ (Or.inr (Or.inl ⟨b, hb, Or.inl rfl⟩)), hpart _ (Or.inr (Or.inl ⟨b, hb, Or.inr rfl⟩))⟩) hb
    have h₃ := extractOption_places ihe (fun a ha => hpart a (Or.inr (Or.inr ha))) he
    rw [aggregates_eq]
    simpa [call?, parts, replace, List.flatMap_assoc, and_assoc] using
      (h₁.append h₂ fun _ => And.intro).append h₃ fun _ => And.intro
  | @between negated operand low high _ _ _ ih₁ ih₂ ih₃ =>
    intro slots slots' e' hflat h
    unfold extract at h
    obtain ⟨⟨operand', slots₁⟩, ho, h⟩ := bind_eq_ok.1 h
    obtain ⟨⟨low', slots₂⟩, hl, h⟩ := bind_eq_ok.1 h
    obtain ⟨⟨high', slots₃⟩, hh, h⟩ := bind_eq_ok.1 h
    cases h
    have h₁ := ih₁ (hflat.part (by simp [parts])) ho
    have h₂ := ih₂ (hflat.part (by simp [parts])) hl
    have h₃ := ih₃ (hflat.part (by simp [parts])) hh
    rw [aggregates_eq]
    simpa [call?, parts, replace, and_assoc] using
      (h₁.append h₂ fun _ => And.intro).append h₃ fun _ => And.intro

/-- The calls in a tree of the grammar are trees of the grammar. -/
theorem Expr.Grammatical.call_of_mem {v : Vocabulary} {e : Expr} (he : Grammatical v e) :
    ∀ c ∈ e.calls, Grammatical v (.call c.1 c.2) := by
  induction he with
  | column | literal => simp [calls_eq, call?, parts]
  | binary _ _ _ _ ihl ihr =>
    intro c hc
    simp only [calls_eq (.binary ..), call?, parts, Option.toList_none, List.nil_append,
      List.flatMap_cons, List.flatMap_nil, List.append_nil, List.mem_append] at hc
    exact hc.elim (ihl c) (ihr c)
  | @membership _ _ items _ _ ihl ihi =>
    intro c hc
    simp only [calls_eq (.binary ..), call?, parts, Option.toList_none, List.nil_append,
      List.flatMap_cons, List.flatMap_nil, List.append_nil, List.mem_append,
      calls_eq (.list items), List.mem_flatMap] at hc
    exact hc.elim (ihl c) fun ⟨a, ha, hc⟩ => ihi a ha c hc
  | unary _ _ ih =>
    intro c hc
    simp only [calls_eq (.unary ..), call?, parts, Option.toList_none, List.nil_append,
      List.flatMap_cons, List.flatMap_nil, List.append_nil] at hc
    exact ih c hc
  | @call name args hname hargs ih =>
    intro c hc
    simp only [calls_eq (.call ..), call?, parts, Option.toList_some, List.mem_append,
      List.mem_singleton, List.mem_flatMap] at hc
    rcases hc with rfl | ⟨a, ha, hc⟩
    · exact .call hname hargs
    · exact ih a ha c hc
  | cases _ _ _ _ _ iho ihc ihr ihe =>
    intro c hc
    simp only [calls_eq (.cases ..), call?, parts, Option.toList_none, List.nil_append,
      List.mem_flatMap, List.mem_append, Option.mem_toList, List.mem_cons, List.not_mem_nil,
      or_false] at hc
    obtain ⟨a, (ha | ⟨b, hb, rfl | rfl⟩) | ha, hc⟩ := hc
    · exact iho a ha c hc
    · exact ihc b hb c hc
    · exact ihr b hb c hc
    · exact ihe a ha c hc
  | between _ _ _ ih₁ ih₂ ih₃ =>
    intro c hc
    simp only [calls_eq (.between ..), call?, parts, Option.toList_none, List.nil_append,
      List.flatMap_cons, List.flatMap_nil, List.append_nil, List.mem_append] at hc
    exact hc.elim (ih₁ c) fun hc => hc.elim (ih₂ c) (ih₃ c)

/-! ## Plans -/

theorem outputsOf_places {fields : List SelectField}
    (hread : ∀ e ∈ fields.filterMap SelectField.expression?, IsRead e)
    (hflat : ∀ e ∈ fields.filterMap SelectField.expression?, e.Flat r) {slots slots' : List Slot}
    {outputs : List Output} (h : Plan.outputsOf r slots fields = .ok (outputs, slots')) :
    Places r slots slots' ((fields.filterMap SelectField.expression?).flatMap (Expr.aggregates r))
      (fun table => outputs = fields.map (Output.ofField (slotFor r table))) := by
  induction fields generalizing slots outputs with
  | nil =>
    unfold Plan.outputsOf at h
    cases h
    exact .refl fun _ => rfl
  | cons field rest ih =>
    unfold Plan.outputsOf at h
    cases field with
    | wildcard =>
      obtain ⟨⟨outputs', slots₁⟩, hmore, h⟩ := bind_eq_ok.1 h
      cases h
      exact (ih hread hflat hmore).imp fun table ht => by rw [ht]; rfl
    | column e alias? =>
      obtain ⟨⟨tree, slots₁⟩, he, h⟩ := bind_eq_ok.1 h
      obtain ⟨⟨outputs', slots₂⟩, hmore, h⟩ := bind_eq_ok.1 h
      cases h
      simp only [List.filterMap_cons, SelectField.expression?, List.forall_mem_cons] at hread hflat
      have hfirst := extract_places hread.1 hflat.1 he
      exact hfirst.append (ih hread.2 hflat.2 hmore) fun table ht hts => by rw [ht, hts]; rfl

end

/-- In a valid query no aggregate call stands inside another one. -/
theorem Query.flat_of_validate {q : Query} {r : Registry} (h : q.validate r = .ok ()) :
    ∀ e ∈ q.selected ++ q.having.toList, e.Flat r := by
  obtain ⟨_, -, h⟩ := bind_eq_ok.1 h
  obtain ⟨_, -, h⟩ := bind_eq_ok.1 h
  obtain ⟨_, -, h⟩ := bind_eq_ok.1 h
  obtain ⟨_, -, h⟩ := bind_eq_ok.1 h
  obtain ⟨_, -, h⟩ := bind_eq_ok.1 h
  obtain ⟨_, h, -⟩ := bind_eq_ok.1 h
  obtain ⟨_, -, h⟩ := bind_eq_ok.1 h
  obtain ⟨_, -, h⟩ := bind_eq_ok.1 h
  obtain ⟨_, hnesting, -⟩ := bind_eq_ok.1 h
  intro e he
  have hnone : nestedAggregate? r e = none := by
    have hcheck := forM_eq_ok hnesting e he
    unfold checkNesting at hcheck
    split at hcheck
    · cases hcheck
    · assumption
  rintro ⟨name, args⟩ hc arg harg
  obtain ⟨hc, hname⟩ := List.mem_filter.1 hc
  have hfirst := List.findSome?_eq_none_iff.1 hnone _ hc
  simp only [hname, if_true, Option.map_eq_none_iff] at hfirst
  have hfind := List.findSome?_eq_none_iff.1 hfirst arg harg
  simp only [firstAggregate?, Option.map_eq_none_iff, List.find?_eq_none] at hfind
  exact List.filter_eq_nil_iff.2 hfind

namespace Plan

variable {q : Query} {r : Registry} {p : Plan}

/-- All selected expressions and HAVING are trees of the grammar. -/
theorem isRead_of_parse {text : String} (hparse : Query.parse text = .ok q) :
    ∀ e ∈ q.selected ++ q.having.toList, IsRead e := fun e he =>
  Query.parse_isRead hparse e (Query.mem_expressions he)

/-- The steps that make a plan, in one. -/
theorem places_of_build {text : String} (hparse : Query.parse text = .ok q)
    (hbuild : build q r = .ok p) :
    Places r [] p.slots (q.aggregates r) (fun table =>
      p.outputs = q.fields.map (Output.ofField (slotFor r table)) ∧
        p.having = q.having.map fun e => .ofExpr (e.replace (slotFor r table))) := by
  obtain ⟨hvalid, -, slots, having, houtputs, hhaving, hp⟩ := build_eq_ok hbuild
  have hread := isRead_of_parse hparse
  have hflat := Query.flat_of_validate hvalid
  have h₁ := outputsOf_places (fun e he => hread e (List.mem_append_left _ he))
    (fun e he => hflat e (List.mem_append_left _ he)) houtputs
  have h₂ := extractOption_places
    (fun e he => extract_places (hread e (List.mem_append_right _ (Option.mem_toList.2 he))))
    (fun e he => hflat e (List.mem_append_right _ (Option.mem_toList.2 he))) hhaving
  rw [Query.aggregates, List.flatMap_append]
  refine h₁.append h₂ fun table ho hh => ⟨ho, ?_⟩
  rw [hp, hh]
  cases q.having <;> rfl

/-- The names in the call need no quotes, and its floats are finite. -/
def IsPlainCall (c : String × List Expr) : Prop :=
  Vocabulary.plain.Spells (.call c.1 c.2)

/-- The text of a plain call tells the call, up to the case of the name. -/
theorem signatureOf_inj_of_parse {text : String} (hparse : Query.parse text = .ok q)
    {c d : String × List Expr} (hc : c ∈ q.aggregates r) (hd : d ∈ q.aggregates r)
    (hcp : IsPlainCall c) (hdp : IsPlainCall d) (h : signatureOf c.1 c.2 = signatureOf d.1 d.2) :
    Text.upper c.1 = Text.upper d.1 ∧ c.2 = d.2 := by
  have hread : ∀ {c : String × List Expr}, c ∈ q.aggregates r → IsRead (.call c.1 c.2) :=
    fun hc => by
      obtain ⟨e, he, hc⟩ := List.mem_flatMap.1 hc
      exact (isRead_of_parse hparse e he).call_of_mem _ (List.mem_filter.1 hc).1
  exact signatureOf_inj ((hread hc).of_spells hcp) ((hread hd).of_spells hdp) h

/-- Aggregate calls share their slots by their texts. -/
structure SharesByText (p : Plan) (q : Query) (r : Registry) : Prop where
  /-- columns have references in the place of aggregate calls, and nothing else is changed -/
  outputs : p.outputs = q.fields.map (Output.ofField (slotFor r p.slots))
  having : p.having = q.having.map fun e => .ofExpr (e.replace (slotFor r p.slots))
  /-- the slot to which a call refers computes some call of its text -/
  computes : ∀ c ∈ q.aggregates r, ∃ s, p.slots[slotIndex p.slots c.1 c.2]? = some s ∧
    ∃ d ∈ q.aggregates r, signatureOf d.1 d.2 = signatureOf c.1 c.2 ∧ s.Answers r d.1 d.2
  shared_iff : ∀ c ∈ q.aggregates r, ∀ d ∈ q.aggregates r,
    (slotIndex p.slots c.1 c.2 = slotIndex p.slots d.1 d.2 ↔
      signatureOf c.1 c.2 = signatureOf d.1 d.2)
  /-- of plain calls only identical ones share -/
  shared_plain_iff : ∀ c ∈ q.aggregates r, ∀ d ∈ q.aggregates r, IsPlainCall c → IsPlainCall d →
    (slotIndex p.slots c.1 c.2 = slotIndex p.slots d.1 d.2 ↔
      Text.upper c.1 = Text.upper d.1 ∧ c.2 = d.2)
  /-- if all calls of its text are plain, the slot of a call computes this very call -/
  computes_plain : ∀ c ∈ q.aggregates r,
    (∀ d ∈ q.aggregates r, signatureOf d.1 d.2 = signatureOf c.1 c.2 → IsPlainCall d) →
    ∃ s, p.slots[slotIndex p.slots c.1 c.2]? = some s ∧ s.Answers r c.1 c.2

/-- **Aggregate calls share a slot exactly if their texts agree.** -/
theorem build_shares_by_text {text : String} (hparse : Query.parse text = .ok q)
    (hbuild : build q r = .ok p) : p.SharesByText q r := by
  have hplaces := places_of_build hparse hbuild
  obtain ⟨houtputs, hhaving⟩ := hplaces.holds p.slots (List.prefix_refl _)
  have hslot : ∀ c ∈ q.aggregates r, ∃ s, p.slots[slotIndex p.slots c.1 c.2]? = some s ∧
      s.signature = signatureOf c.1 c.2 := fun c hc => by
    obtain ⟨s, hs, hsig⟩ := hplaces.found c hc
    have hlt : slotIndex p.slots c.1 c.2 < p.slots.length :=
      List.findIdx_lt_length.2 ⟨s, hs, decide_eq_true hsig⟩
    exact ⟨_, List.getElem?_eq_getElem hlt, of_decide_eq_true (List.findIdx_getElem (w := hlt))⟩
  have hcomputes : ∀ c ∈ q.aggregates r, ∃ s, p.slots[slotIndex p.slots c.1 c.2]? = some s ∧
      ∃ d ∈ q.aggregates r, signatureOf d.1 d.2 = signatureOf c.1 c.2 ∧ s.Answers r d.1 d.2 :=
    fun c hc => by
      obtain ⟨s, hs, hsig⟩ := hslot c hc
      rcases hplaces.origin s (List.mem_of_getElem? hs) with hnil | ⟨d, hd, ha⟩
      · cases hnil
      · exact ⟨s, hs, d, hd, ha.signature.symm.trans hsig, ha⟩
  have hshared : ∀ c ∈ q.aggregates r, ∀ d ∈ q.aggregates r,
      (slotIndex p.slots c.1 c.2 = slotIndex p.slots d.1 d.2 ↔
        signatureOf c.1 c.2 = signatureOf d.1 d.2) := fun c hc d hd => by
    constructor
    · intro heq
      obtain ⟨s, hs, hsc⟩ := hslot c hc
      obtain ⟨t, ht, htd⟩ := hslot d hd
      rw [heq, ht] at hs
      rw [← hsc, ← htd, Option.some.inj hs]
    · intro heq
      rw [slotIndex, heq]
      rfl
  refine ⟨houtputs, hhaving, hcomputes, hshared, fun c hc d hd hcp hdp => ?_, fun c hc hall => ?_⟩
  · refine (hshared c hc d hd).trans ⟨signatureOf_inj_of_parse hparse hc hd hcp hdp,
      fun ⟨hname, hargs⟩ => ?_⟩
    rw [signatureOf, hname, hargs]
    rfl
  · obtain ⟨s, hs, d, hd, heq, ha⟩ := hcomputes c hc
    obtain ⟨hname, hargs⟩ := signatureOf_inj_of_parse hparse hd hc (hall d hd heq) (hall c hc rfl) heq
    refine ⟨s, hs, ?_, hargs ▸ ha.input, hargs ▸ parameterValues_rename ha.parameters,
      ha.signature.trans heq⟩
    have hfunction := ha.function
    rwa [Registry.aggregate?, hname] at hfunction

end Plan

namespace Query

open Token

/-- The sum of a sum, and the sum of a column whose name spells it. -/
def twoSums : Query where
  fields := [.column (.call "SUM" [.binary .add (.column "a") (.column "b")]) (some "x"),
    .column (.call "SUM" [.column "(a + b)"]) (some "y")]
  distinct := false
  source := "s"
  condition := none
  groupBy := []
  window := some (.counting 1)
  having := none
  limit := none
  properties := []

theorem parse_twoSums : parse ("SELECT SUM(a + b) AS x, SUM(`(a + b)`) AS y FROM s " ++
    "GROUP BY CountingWindow(1)") = .ok twoSums := by
  let window : List Token := [⟨.identifier, "CountingWindow", 60⟩, ⟨.leftParen, "(", 74⟩,
    ⟨.number, "1", 75⟩, ⟨.rightParen, ")", 76⟩, ⟨.eof, "", 77⟩]
  let grouping : List Token := ⟨.group, "GROUP", 51⟩ :: ⟨.by_, "BY", 57⟩ :: window
  let source : List Token := ⟨.from, "FROM", 44⟩ :: ⟨.identifier, "s", 49⟩ :: grouping
  let fields : List Token := [⟨.identifier, "SUM", 7⟩, ⟨.leftParen, "(", 10⟩,
    ⟨.identifier, "a", 11⟩, ⟨.plus, "+", 13⟩, ⟨.identifier, "b", 15⟩, ⟨.rightParen, ")", 16⟩,
    ⟨.as_, "AS", 18⟩, ⟨.identifier, "x", 21⟩, ⟨.comma, ",", 22⟩, ⟨.identifier, "SUM", 24⟩,
    ⟨.leftParen, "(", 27⟩, ⟨.identifier, "(a + b)", 28⟩, ⟨.rightParen, ")", 37⟩,
    ⟨.as_, "AS", 39⟩, ⟨.identifier, "y", 42⟩] ++ source
  have htokens : tokenize ("SELECT SUM(a + b) AS x, SUM(`(a + b)`) AS y FROM s " ++
      "GROUP BY CountingWindow(1)") = .ok (⟨.select, "SELECT", 0⟩ :: fields) := by
    decide +kernel
  have hfields : readFields fields = .ok (twoSums.fields, ⟨source, by decide⟩) := by cbv
  have hone : numberLiteral? "1" = some (.integer 1) := by decide +kernel
  have hwindow : readAt .unlimited .or window =
      .ok (.call "CountingWindow" [.literal (.integer 1)], ⟨[⟨.eof, "", 77⟩], by decide⟩) := by
    simp [window, readAt, readChain, readComparison, readPrimary, readArguments, readArgumentList,
      skip?, expect, constant?, hone, Level.operator?, comparisonOf?, bind, Except.bind, pure,
      Except.pure]
  have hgrouping : readGrouping {} window =
      .ok (⟨[], some (.counting 1)⟩, ⟨[⟨.eof, "", 77⟩], by decide⟩) := by
    unfold readGrouping
    exact bind_eq_ok.2 ⟨_, hwindow, bind_eq_ok.2 ⟨_, rfl, rfl⟩⟩
  have hgroup : readGroupBy grouping = .ok (⟨[], some (.counting 1)⟩, [⟨.eof, "", 77⟩]) :=
    bind_eq_ok.2 ⟨_, rfl, bind_eq_ok.2 ⟨_, hgrouping, rfl⟩⟩
  refine bind_eq_ok.2 ⟨_, htokens, bind_eq_ok.2 ⟨_, rfl, bind_eq_ok.2 ⟨_, hfields, ?_⟩⟩⟩
  refine bind_eq_ok.2 ⟨_, rfl, bind_eq_ok.2 ⟨_, rfl, ?_⟩⟩
  refine bind_eq_ok.2 ⟨_, rfl, bind_eq_ok.2 ⟨_, rfl, ?_⟩⟩
  exact bind_eq_ok.2 ⟨_, hgroup, bind_eq_ok.2 ⟨_, rfl, bind_eq_ok.2 ⟨_, rfl,
    bind_eq_ok.2 ⟨_, rfl, bind_eq_ok.2 ⟨_, rfl, rfl⟩⟩⟩⟩⟩

end Query

/-- Both columns of this query report the sum of `a + b`, the second one in the place of the sum of
    another column. -/
theorem Plan.build_shares_by_text_quoted :
    let sum : String × List Expr := ("SUM", [.binary .add (.column "a") (.column "b")])
    let quoted : String × List Expr := ("SUM", [.column "(a + b)"])
    Query.parse ("SELECT SUM(a + b) AS x, SUM(`(a + b)`) AS y FROM s " ++
        "GROUP BY CountingWindow(1)") = .ok .twoSums ∧
      ∃ p, Plan.build .twoSums (.standard 0) = .ok p ∧
        p.SharesByText .twoSums (.standard 0) ∧
        sum ∈ Query.twoSums.aggregates (.standard 0) ∧
        quoted ∈ Query.twoSums.aggregates (.standard 0) ∧ sum.2 ≠ quoted.2 ∧
        slotIndex p.slots sum.1 sum.2 = slotIndex p.slots quoted.1 quoted.2 := by
  intro sum quoted
  obtain ⟨p, hp⟩ : ∃ p, Plan.build .twoSums (.standard 0) = .ok p := by
    have hsome : (Plan.build .twoSums (.standard 0)).toOption.isSome = true := by
      decide +kernel
    cases h : Plan.build .twoSums (.standard 0) with
    | ok p => exact ⟨p, rfl⟩
    | error e =>
      rw [h] at hsome
      cases hsome
  have hshares := Plan.build_shares_by_text Query.parse_twoSums hp
  have hcalls : Query.twoSums.aggregates (.standard 0) = [sum, quoted] := by rfl
  have hsum : sum ∈ Query.twoSums.aggregates (.standard 0) := by simp [hcalls]
  have hquoted : quoted ∈ Query.twoSums.aggregates (.standard 0) := by simp [hcalls]
  exact ⟨Query.parse_twoSums, p, hp, hshares, hsum, hquoted, by simp [sum, quoted],
    (hshares.shared_iff sum hsum quoted hquoted).2 (by decide +kernel)⟩

end StreamSql
