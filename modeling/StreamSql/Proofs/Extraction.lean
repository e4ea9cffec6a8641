/-
  Slots in place of the aggregate calls.

  The expressions of a plan have slots in place of the aggregate calls.  A slot is that of
  every call of its signature (`answers_of_signature`), so whatever else the table of slots
  holds when the group fires, the slot of a call has the value of the call, and the expression
  has the value of the one from which it was made.

  * `Yields`: what a step of the extraction does to the table of slots;
  * `realizes_groupOf`: the results of a group are those of the calls of its slots;
  * `extract_same`: the expression with slots has the value of the one without.
-/
import StreamSql.Proofs.Denotation
import StreamSql.Proofs.Grouping
import StreamSql.Proofs.Rendering

namespace StreamSql

open StreamSql.Expr

/-! ## Slots -/

/-- Names without quotes, finite constants, and calls that passed the checks of some clause. -/
def Expr.Vocabulary.checked (r : Registry) : Vocabulary where
  column := Vocabulary.plain.column
  call name args := Vocabulary.plain.call name args ∧
    ∃ clause, checkCall r clause (name, args) = .ok ()
  literal := Vocabulary.plain.literal

theorem Expr.Grammatical.plain_of_checked {r : Registry} {e : Expr}
    (h : Grammatical (.checked r) e) : Grammatical .plain e :=
  @Grammatical.mono (.checked r) .plain (fun _ h => h) (fun _ _ h => h.1) (fun _ h => h) e h

/-- The slot is that of the call. -/
structure Slot.Answers (r : Registry) (s : Slot) (name : String) (args : List Expr) : Prop where
  function : r.aggregate? name = some s.function
  input : s.input = args.head?.map Compiled.ofExpr
  parameters : parameterValues r name args = .ok s.parameters
  signature : s.signature = signatureOf name args

/-- The slot is that of some call. -/
def Slot.Sound (r : Registry) (s : Slot) : Prop :=
  ∃ name args, Grammatical (.checked r) (.call name args) ∧ s.Answers r name args

/-- The name of an aggregate only tells what a message about its parameters says. -/
theorem parameterValues_rename {r : Registry} {name name' : String} {args : List Expr}
    {values : List Value} (h : parameterValues r name args = .ok values) :
    parameterValues r name' args = .ok values := by
  have hone : ∀ {e : Expr} {v : Value}, parameterValue r name e = .ok v →
      parameterValue r name' e = .ok v := fun {e v} h => by
    unfold parameterValue at h ⊢
    split at h
    · next hc =>
      rw [if_pos hc]
      split at h
      · exact h
      · cases h
    · cases h
  have hall : ∀ {es : List Expr} {vs : List Value}, es.mapM (parameterValue r name) = .ok vs →
      es.mapM (parameterValue r name') = .ok vs := fun {es} => by
    induction es with
    | nil => exact id
    | cons e rest ih =>
      intro vs h
      rw [List.mapM_cons] at h ⊢
      obtain ⟨v, hv, h⟩ := bind_eq_ok.1 h
      obtain ⟨ws, hws, h⟩ := bind_eq_ok.1 h
      exact bind_eq_ok.2 ⟨v, hone hv, bind_eq_ok.2 ⟨ws, ih hws, h⟩⟩
  exact hall h

/-- **A slot** is that of every call with its signature. -/
theorem Slot.Sound.answers_of_signature {r : Registry} {s : Slot} (hs : s.Sound r)
    {name : String} {args : List Expr} (hcall : Grammatical (.checked r) (.call name args))
    (h : s.signature = signatureOf name args) : s.Answers r name args := by
  obtain ⟨name', args', hcall', hanswers⟩ := hs
  obtain ⟨hupper, rfl⟩ := signatureOf_inj hcall'.plain_of_checked hcall.plain_of_checked
    (hanswers.signature.symm.trans h)
  refine ⟨?_, hanswers.input, parameterValues_rename hanswers.parameters, h⟩
  have hfunction := hanswers.function
  rwa [Registry.aggregate?, hupper] at hfunction

/-- A table of slots that are all those of some calls. -/
def SoundTable (r : Registry) (slots : List Slot) : Prop :=
  ∀ s ∈ slots, s.Sound r

theorem soundTable_nil {r : Registry} : SoundTable r [] := fun _ hs => by cases hs

/-- A step of the extraction: the table only grows at its end, all slots remain sound, and `P`
    holds if the table begins like this when the group fires. -/
structure Yields (r : Registry) (table slots slots' : List Slot) (P : Prop) : Prop where
  grows : slots <+: slots'
  sound : SoundTable r slots'
  holds : slots' <+: table → P

namespace Yields

variable {r : Registry} {table slots slots' slots'' : List Slot} {P Q R : Prop}

theorem refl (h : SoundTable r slots) (hp : P) : Yields r table slots slots P :=
  ⟨List.prefix_refl _, h, fun _ => hp⟩

/-- One step behind another, and what follows from both. -/
theorem and (h : Yields r table slots slots' P) (h' : Yields r table slots' slots'' Q)
    (hpq : P → Q → R) : Yields r table slots slots'' R :=
  ⟨h.grows.trans h'.grows, h'.sound, fun ht => hpq (h.holds (h'.grows.trans ht)) (h'.holds ht)⟩

theorem imp (h : Yields r table slots slots' P) (hpq : P → Q) : Yields r table slots slots' Q :=
  ⟨h.grows, h.sound, fun ht => hpq (h.holds ht)⟩

end Yields

/-- The slot that takes the place of an aggregate call is that of the call. -/
theorem slotOf_yields {r : Registry} {table slots slots' : List Slot} {f : AggregateFunction}
    {name : String} {args : List Expr} {e : Expr} (hslots : SoundTable r slots)
    (hcall : Grammatical (.checked r) (.call name args)) (hf : r.aggregate? name = some f)
    (h : slotOf r f name args slots = .ok (e, slots')) :
    Yields r table slots slots' (∃ i s, e = .slot i ∧ table[i]? = some s ∧
      s.Answers r name args) := by
  unfold slotOf at h
  simp only at h
  split at h
  · next i hi =>
    cases h
    obtain ⟨hlt, hsig, -⟩ := List.findIdx?_eq_some_iff_getElem.1 hi
    exact ⟨List.prefix_refl _, hslots, fun ht =>
      ⟨i, slots[i], rfl, List.prefix_iff_getElem?.1 ht i hlt,
        (hslots _ (List.getElem_mem hlt)).answers_of_signature hcall (of_decide_eq_true hsig)⟩⟩
  · obtain ⟨parameters, hparameters, h⟩ := bind_eq_ok.1 h
    cases h
    have hanswers : Slot.Answers r ⟨Text.upper name, args.head?.map Compiled.ofExpr, parameters,
        signatureOf name args, f⟩ name args := ⟨hf, rfl, parameterValues_rename hparameters, rfl⟩
    refine ⟨List.prefix_append _ _, fun s hs => ?_, fun ht => ⟨slots.length, _, rfl, ?_, hanswers⟩⟩
    · rcases List.mem_append.1 hs with hs | hs
      · exact hslots s hs
      · rw [List.mem_singleton.1 hs]
        exact ⟨name, args, hcall, hanswers⟩
    · have hlast := List.prefix_iff_getElem?.1 ht slots.length (by simp)
      simpa using hlast

/-! ## Values of slots -/

/-- The results of the slots are the values of their calls over the records. -/
def Realizes (r : Registry) (records : List Record) (table : List Slot) (results : List Value) :
    Prop :=
  ∀ (i : Nat) (s : Slot) (name : String) (args : List Expr), table[i]? = some s →
    s.Answers r name args →
    ∃ v, aggregateValue r records s.function name args = .ok v ∧ results[i]? = some v

/-- A record offers to a slot what it gives to the call. -/
theorem offer_contribution {r : Registry} {s : Slot} {name : String} {args : List Expr}
    (h : s.Answers r name args) (record : Record) (acc : Accumulator) :
    acc.offer (s.contribution r record) = (givenTo r args record).elim acc acc.feed := by
  have hinput := h.input
  unfold Slot.contribution givenTo
  cases args with
  | nil =>
    rw [hinput]
    rfl
  | cons e more =>
    rw [hinput]
    simp only [List.head?_cons, Option.map_some, Compiled.eval, Compiled.ofExpr]
    cases e.eval { record, registry := r } with
    | error _ => rfl
    | ok v =>
      cases hv : v.isNull with
      | true => simp [Accumulator.offer, hv]
      | false =>
        simp only [Accumulator.offer, hv]
        rfl

theorem foldl_offer_eq {r : Registry} {s : Slot} {name : String} {args : List Expr}
    (h : s.Answers r name args) (records : List Record) (acc : Accumulator) :
    records.foldl (fun acc record => acc.offer (s.contribution r record)) acc =
      (records.filterMap (givenTo r args)).foldl Accumulator.feed acc := by
  induction records generalizing acc with
  | nil => rfl
  | cons record rest ih =>
    rw [List.foldl_cons, ih, offer_contribution h, List.filterMap_cons]
    cases givenTo r args record <;> rfl

theorem realizes_groupOf {p : Plan} {accs : List Accumulator} (hp : p.newAccumulators = .ok accs)
    (records : List Record) :
    Realizes p.registry records p.slots (p.groupOf accs records).results := by
  intro i s name args hi hanswers
  obtain ⟨acc, hacc, hget⟩ := Plan.accumulators_groupOf hp records hi
  refine ⟨_, bind_eq_ok.2 ⟨_, hanswers.parameters, bind_eq_ok.2 ⟨_, hacc, rfl⟩⟩, ?_⟩
  rw [Group.results, List.getElem?_map, hget, foldl_offer_eq hanswers]
  rfl

/-! ## Expressions -/

section

variable {r : Registry} {records : List Record} {table : List Slot} {results : List Value}

/-- The expression with slots has the value of the one without. -/
def Same (r : Registry) (records : List Record) (results : List Value) (e' e : Expr) : Prop :=
  ∀ s : Scope, e'.eval { s with aggregates := results } = e.evalWith (aggregateCalls r records) s

theorem evalList_same {items' items : List Expr}
    (h : List.Forall₂ (Same r records results) items' items) (s : Scope) :
    evalList { s with aggregates := results } items' =
      evalListWith (aggregateCalls r records) s items := by
  induction h with
  | nil => simp only [evalList, evalListWith]
  | cons he _ ih => simp only [evalList, evalListWith, he s, ih]

theorem evalItems_same {items' items : List Expr}
    (h : List.Forall₂ (Same r records results) items' items) (s : Scope) (negated : Bool)
    (v : Value) (unknown : Bool) :
    evalItems { s with aggregates := results } negated v unknown items' =
      evalItemsWith (aggregateCalls r records) s negated v unknown items := by
  induction h generalizing unknown with
  | nil => simp only [evalItems, evalItemsWith]
  | cons he _ ih => simp only [evalItems, evalItemsWith, he s, ih]

theorem evalOption_same {e' e : Option Expr} (h : Option.Rel (Same r records results) e' e)
    (s : Scope) :
    evalOption { s with aggregates := results } e' =
      evalOptionWith (aggregateCalls r records) s e := by
  cases h with
  | none => simp only [evalOption, evalOptionWith]
  | some he => simp only [evalOption, evalOptionWith, he s]

/-- Both expressions of a branch have the values of those without slots. -/
def SameBranch (r : Registry) (records : List Record) (results : List Value)
    (b' b : Expr × Expr) : Prop :=
  Same r records results b'.1 b.1 ∧ Same r records results b'.2 b.2

theorem evalBranches_same {branches' branches : List (Expr × Expr)}
    (h : List.Forall₂ (SameBranch r records results) branches' branches) (s : Scope)
    (subject : Option Value) :
    evalBranches { s with aggregates := results } subject branches' =
      evalBranchesWith (aggregateCalls r records) s subject branches := by
  induction h with
  | nil => simp only [evalBranches, evalBranchesWith]
  | cons hb _ ih =>
    simp only [evalBranches, hb.1 s, hb.2 s, ih]
    rfl

/-- The extraction of the expression yields one with its value. -/
def Preserved (r : Registry) (records : List Record) (table : List Slot) (results : List Value)
    (e : Expr) : Prop :=
  ∀ {slots slots' : List Slot} {e' : Expr}, SoundTable r slots →
    e.extract r slots = .ok (e', slots') →
    Yields r table slots slots' (Same r records results e' e)

theorem extractList_yields {items : List Expr}
    (h : ∀ e ∈ items, Preserved r records table results e) {slots slots' : List Slot}
    {items' : List Expr} (hslots : SoundTable r slots)
    (he : extractList r slots items = .ok (items', slots')) :
    Yields r table slots slots' (List.Forall₂ (Same r records results) items' items) := by
  induction items generalizing slots items' with
  | nil =>
    unfold extractList at he
    cases he
    exact .refl hslots .nil
  | cons e rest ih =>
    unfold extractList at he
    obtain ⟨⟨e', slots₁⟩, hfirst, he⟩ := bind_eq_ok.1 he
    obtain ⟨⟨rest', slots₂⟩, hrest, he⟩ := bind_eq_ok.1 he
    cases he
    have hhead := h e List.mem_cons_self hslots hfirst
    have htail := ih (fun a ha => h a (List.mem_cons_of_mem _ ha)) hhead.sound hrest
    exact hhead.and htail .cons

theorem extractOption_yields {e : Option Expr}
    (h : ∀ a ∈ e, Preserved r records table results a) {slots slots' : List Slot}
    {e' : Option Expr} (hslots : SoundTable r slots)
    (he : extractOption r slots e = .ok (e', slots')) :
    Yields r table slots slots' (Option.Rel (Same r records results) e' e) := by
  unfold extractOption at he
  cases e with
  | none =>
    cases he
    exact .refl hslots .none
  | some a =>
    obtain ⟨⟨a', slots₁⟩, ha, he⟩ := bind_eq_ok.1 he
    cases he
    exact (h a rfl hslots ha).imp .some

theorem extractBranches_yields {branches : List (Expr × Expr)}
    (hc : ∀ b ∈ branches, Preserved r records table results b.1)
    (hr : ∀ b ∈ branches, Preserved r records table results b.2) {slots slots' : List Slot}
    {branches' : List (Expr × Expr)} (hslots : SoundTable r slots)
    (he : extractBranches r slots branches = .ok (branches', slots')) :
    Yields r table slots slots'
      (List.Forall₂ (SameBranch r records results) branches' branches) := by
  induction branches generalizing slots branches' with
  | nil =>
    unfold extractBranches at he
    cases he
    exact .refl hslots .nil
  | cons b rest ih =>
    unfold extractBranches at he
    obtain ⟨⟨condition, slots₁⟩, hcondition, he⟩ := bind_eq_ok.1 he
    obtain ⟨⟨result, slots₂⟩, hresult, he⟩ := bind_eq_ok.1 he
    obtain ⟨⟨rest', slots₃⟩, hrest, he⟩ := bind_eq_ok.1 he
    cases he
    have h₁ := hc b List.mem_cons_self hslots hcondition
    have h₂ := hr b List.mem_cons_self h₁.sound hresult
    have h₃ := ih (fun a ha => hc a (List.mem_cons_of_mem _ ha))
      (fun a ha => hr a (List.mem_cons_of_mem _ ha)) h₂.sound hrest
    exact (h₁.and h₂ And.intro).and h₃ fun hboth hall => .cons hboth hall

theorem call_same {name : String} {args' args : List Expr} (hf : r.aggregate? name = none)
    (h : List.Forall₂ (Same r records results) args' args) :
    Same r records results (.call name args') (.call name args) := by
  intro s
  have hknown : aggregateCalls r records name args = none := by rw [aggregateCalls, hf]; rfl
  have hempty : args'.isEmpty = args.isEmpty := by cases h <;> rfl
  cases hbound : WindowBound.ofName? name with
  | some bound => simp only [eval, evalWith, hknown, hbound, hempty]
  | none => simp only [eval, evalWith, hknown, hbound, evalList_same h s]

theorem slot_same (hreal : Realizes r records table results) {name : String} {args : List Expr}
    {i : Nat} {s : Slot} (hi : table[i]? = some s) (hs : s.Answers r name args) :
    Same r records results (.slot i) (.call name args) := by
  intro scope
  obtain ⟨v, hv, hget⟩ := hreal i s name args hi hs
  have hknown : aggregateCalls r records name args = some (.ok v) := by
    rw [aggregateCalls, hs.function]
    exact congrArg some hv
  simp only [eval, evalWith, hknown, hget]

/-- **Extraction** replaces the aggregate calls of an expression and keeps its value. -/
theorem extract_same (hreal : Realizes r records table results) {e : Expr}
    (he : Grammatical (.checked r) e) : Preserved r records table results e := by
  induction he with
  | column =>
    intro slots slots' e' hslots h
    unfold extract at h
    cases h
    exact .refl hslots fun s => by simp only [eval, evalWith]; rfl
  | literal =>
    intro slots slots' e' hslots h
    unfold extract at h
    cases h
    exact .refl hslots fun s => by simp only [eval, evalWith]
  | @binary op left right h₁ h₂ _ _ ihl ihr =>
    intro slots slots' e' hslots h
    unfold extract at h
    obtain ⟨⟨left', slots₁⟩, hl, h⟩ := bind_eq_ok.1 h
    obtain ⟨⟨right', slots₂⟩, hr, h⟩ := bind_eq_ok.1 h
    cases h
    have hleft := ihl hslots hl
    refine hleft.and (ihr hleft.sound hr) fun hsl hsr s => ?_
    cases op
    case isIn => exact absurd rfl h₁
    case notIn => exact absurd rfl h₂
    all_goals simp only [eval, evalWith, hsl s, hsr s]
  | @membership negated left items _ _ ihl ihi =>
    intro slots slots' e' hslots h
    unfold extract at h
    obtain ⟨⟨left', slots₁⟩, hl, h⟩ := bind_eq_ok.1 h
    obtain ⟨⟨list, slots₂⟩, hlist, h⟩ := bind_eq_ok.1 h
    cases h
    unfold extract at hlist
    obtain ⟨⟨items', slots₃⟩, hitems, hlist⟩ := bind_eq_ok.1 hlist
    cases hlist
    have hleft := ihl hslots hl
    refine hleft.and (extractList_yields ihi hleft.sound hitems) fun hsl hsi s => ?_
    cases negated
    all_goals
      simp only [membership, eval, evalMembership, hsl s, evalItems_same hsi s]
      rfl
  | @unary op operand _ _ ih =>
    intro slots slots' e' hslots h
    unfold extract at h
    obtain ⟨⟨operand', slots₁⟩, ho, h⟩ := bind_eq_ok.1 h
    cases h
    exact (ih hslots ho).imp fun hs s => by simp only [eval, evalWith, hs s]
  | @call name args hname hargs ih =>
    intro slots slots' e' hslots h
    unfold extract at h
    cases hf : r.aggregate? name with
    | some f =>
      rw [hf] at h
      refine (slotOf_yields hslots (.call hname hargs) hf h).imp ?_
      rintro ⟨i, s, rfl, hi, hs⟩
      exact slot_same hreal hi hs
    | none =>
      rw [hf] at h
      obtain ⟨⟨args', slots₁⟩, ha, h⟩ := bind_eq_ok.1 h
      cases h
      exact (extractList_yields ih hslots ha).imp (call_same hf)
  | @cases operand otherwise branches _ _ _ _ _ iho ihc ihr ihe =>
    intro slots slots' e' hslots h
    unfold extract at h
    obtain ⟨⟨operand', slots₁⟩, ho, h⟩ := bind_eq_ok.1 h
    obtain ⟨⟨branches', slots₂⟩, hb, h⟩ := bind_eq_ok.1 h
    obtain ⟨⟨otherwise', slots₃⟩, he, h⟩ := bind_eq_ok.1 h
    cases h
    have h₁ := extractOption_yields iho hslots ho
    have h₂ := extractBranches_yields ihc ihr h₁.sound hb
    have h₃ := extractOption_yields ihe h₂.sound he
    refine (h₁.and h₂ And.intro).and h₃ fun hboth hse s => ?_
    simp only [eval, evalOption_same hboth.1 s, evalBranches_same hboth.2 s, evalOption_same hse s]
    rfl
  | @between negated operand low high _ _ _ ih₁ ih₂ ih₃ =>
    intro slots slots' e' hslots h
    unfold extract at h
    obtain ⟨⟨operand', slots₁⟩, ho, h⟩ := bind_eq_ok.1 h
    obtain ⟨⟨low', slots₂⟩, hl, h⟩ := bind_eq_ok.1 h
    obtain ⟨⟨high', slots₃⟩, hh, h⟩ := bind_eq_ok.1 h
    cases h
    have h₁ := ih₁ hslots ho
    have h₂ := ih₂ h₁.sound hl
    have h₃ := ih₃ h₂.sound hh
    refine (h₁.and h₂ And.intro).and h₃ fun hboth hsh s => ?_
    simp only [eval, evalWith, hboth.1 s, hboth.2 s, hsh s]

end

end StreamSql
