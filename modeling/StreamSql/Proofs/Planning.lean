/-
  Planning fails only where validation does.

  Validation evaluates the parameters of every aggregate call and tries the aggregate on them.
  Planning does this again, on the calls for which it makes slots, and every new group does it
  once more.  So a valid query has a plan, the plan can make its accumulators, and no record makes
  it fail.

  * `extract_ok`: the extraction succeeds where all parameters are constants;
  * `Plan.build_ok`: a valid query has a plan;
  * `Plan.newAccumulators_ok`: the plan can begin a group;
  * `Run.process_ok`, `Run.play_ok`: then no record fails, and no history does;
  * `Plan.build_complete`: all of this of a query that was read.
-/
import StreamSql.Proofs.Overdue
import StreamSql.Proofs.Resolution

namespace StreamSql

open StreamSql.Expr

/-! ## Extraction -/

section

variable {r : Registry}

/-- The aggregate calls have constant parameters. -/
def Expr.Vocabulary.constant (r : Registry) : Vocabulary where
  column _ := True
  call name args :=
    r.isAggregate name = true → ∃ parameters, parameterValues r name args = .ok parameters
  literal _ := True

/-- The extraction succeeds, whatever slots there are. -/
def Extracts (r : Registry) (e : Expr) : Prop :=
  ∀ slots, ∃ made, e.extract r slots = .ok made

theorem slotOf_ok {f : AggregateFunction} {name : String} {args : List Expr}
    {parameters : List Value} (h : parameterValues r name args = .ok parameters)
    (slots : List Slot) : ∃ made, slotOf r f name args slots = .ok made := by
  unfold slotOf
  simp only
  split
  · exact ⟨_, rfl⟩
  · exact ⟨_, bind_eq_ok.2 ⟨parameters, parameterValues_rename h, rfl⟩⟩

theorem extractList_ok {items : List Expr} (h : ∀ e ∈ items, Extracts r e) (slots : List Slot) :
    ∃ made, extractList r slots items = .ok made := by
  induction items generalizing slots with
  | nil => exact ⟨_, rfl⟩
  | cons e rest ih =>
    obtain ⟨he, hrest⟩ := List.forall_mem_cons.1 h
    obtain ⟨first, hfirst⟩ := he slots
    obtain ⟨more, hmore⟩ := ih hrest first.2
    exact ⟨_, bind_eq_ok.2 ⟨first, hfirst, bind_eq_ok.2 ⟨more, hmore, rfl⟩⟩⟩

theorem extractOption_ok {e : Option Expr} (h : ∀ a ∈ e, Extracts r a) (slots : List Slot) :
    ∃ made, extractOption r slots e = .ok made := by
  cases e with
  | none => exact ⟨_, rfl⟩
  | some a =>
    obtain ⟨made, hmade⟩ := h a rfl slots
    exact ⟨_, bind_eq_ok.2 ⟨made, hmade, rfl⟩⟩

theorem extractBranches_ok {branches : List (Expr × Expr)} (hc : ∀ b ∈ branches, Extracts r b.1)
    (hr : ∀ b ∈ branches, Extracts r b.2) (slots : List Slot) :
    ∃ made, extractBranches r slots branches = .ok made := by
  induction branches generalizing slots with
  | nil => exact ⟨_, rfl⟩
  | cons b rest ih =>
    obtain ⟨hcondition, hconditions⟩ := List.forall_mem_cons.1 hc
    obtain ⟨hresult, hresults⟩ := List.forall_mem_cons.1 hr
    obtain ⟨first, hfirst⟩ := hcondition slots
    obtain ⟨second, hsecond⟩ := hresult first.2
    obtain ⟨more, hmore⟩ := ih hconditions hresults second.2
    exact ⟨_, bind_eq_ok.2 ⟨first, hfirst, bind_eq_ok.2 ⟨second, hsecond,
      bind_eq_ok.2 ⟨more, hmore, rfl⟩⟩⟩⟩

/-- **The extraction succeeds** where the parameters of all aggregate calls are constants. -/
theorem extract_ok {e : Expr} (he : Grammatical (.constant r) e) : Extracts r e := by
  induction he with
  | column | literal => exact fun slots => ⟨_, rfl⟩
  | binary _ _ _ _ ihl ihr =>
    intro slots
    obtain ⟨left, hleft⟩ := ihl slots
    obtain ⟨right, hright⟩ := ihr left.2
    exact ⟨_, bind_eq_ok.2 ⟨left, hleft, bind_eq_ok.2 ⟨right, hright, rfl⟩⟩⟩
  | membership _ _ ihl ihi =>
    intro slots
    obtain ⟨left, hleft⟩ := ihl slots
    obtain ⟨items, hitems⟩ := extractList_ok ihi left.2
    exact ⟨_, bind_eq_ok.2 ⟨left, hleft, bind_eq_ok.2
      ⟨_, bind_eq_ok.2 ⟨items, hitems, rfl⟩, rfl⟩⟩⟩
  | unary _ _ ih =>
    intro slots
    obtain ⟨operand, hoperand⟩ := ih slots
    exact ⟨_, bind_eq_ok.2 ⟨operand, hoperand, rfl⟩⟩
  | @call name args hcall _ ih =>
    intro slots
    unfold extract
    cases hf : r.aggregate? name with
    | some f =>
      obtain ⟨parameters, hparameters⟩ := hcall (by rw [Registry.isAggregate, hf]; rfl)
      exact slotOf_ok hparameters slots
    | none =>
      obtain ⟨made, hmade⟩ := extractList_ok ih slots
      exact ⟨_, bind_eq_ok.2 ⟨made, hmade, rfl⟩⟩
  | cases _ _ _ _ _ iho ihc ihr ihe =>
    intro slots
    obtain ⟨operand, hoperand⟩ := extractOption_ok iho slots
    obtain ⟨branches, hbranches⟩ := extractBranches_ok ihc ihr operand.2
    obtain ⟨otherwise, hotherwise⟩ := extractOption_ok ihe branches.2
    exact ⟨_, bind_eq_ok.2 ⟨operand, hoperand, bind_eq_ok.2 ⟨branches, hbranches,
      bind_eq_ok.2 ⟨otherwise, hotherwise, rfl⟩⟩⟩⟩
  | between _ _ _ ih₁ ih₂ ih₃ =>
    intro slots
    obtain ⟨operand, hoperand⟩ := ih₁ slots
    obtain ⟨low, hlow⟩ := ih₂ operand.2
    obtain ⟨high, hhigh⟩ := ih₃ low.2
    exact ⟨_, bind_eq_ok.2 ⟨operand, hoperand, bind_eq_ok.2 ⟨low, hlow,
      bind_eq_ok.2 ⟨high, hhigh, rfl⟩⟩⟩⟩

theorem outputsOf_ok {fields : List SelectField}
    (h : ∀ e ∈ fields.filterMap SelectField.expression?, Extracts r e) (slots : List Slot) :
    ∃ made, Plan.outputsOf r slots fields = .ok made := by
  induction fields generalizing slots with
  | nil => exact ⟨_, rfl⟩
  | cons field rest ih =>
    cases field with
    | wildcard =>
      obtain ⟨more, hmore⟩ := ih h slots
      exact ⟨_, bind_eq_ok.2 ⟨more, hmore, rfl⟩⟩
    | column e alias? =>
      simp only [List.filterMap_cons, SelectField.expression?, List.forall_mem_cons] at h
      obtain ⟨first, hfirst⟩ := h.1 slots
      obtain ⟨more, hmore⟩ := ih h.2 first.2
      exact ⟨_, bind_eq_ok.2 ⟨first, hfirst, bind_eq_ok.2 ⟨more, hmore, rfl⟩⟩⟩

end

/-! ## Plans of valid queries -/

/-- The query names a unit for its event time that is known, or none. -/
theorem EventTime.ofQuery_ok {q : Query} {r : Registry} (h : q.validate r = .ok ()) :
    ∃ timestamp, EventTime.ofQuery q = .ok timestamp := by
  obtain ⟨_, -, h⟩ := bind_eq_ok.1 h
  obtain ⟨_, -, h⟩ := bind_eq_ok.1 h
  obtain ⟨_, -, h⟩ := bind_eq_ok.1 h
  obtain ⟨_, -, h⟩ := bind_eq_ok.1 h
  obtain ⟨_, -, h⟩ := bind_eq_ok.1 h
  obtain ⟨_, -, h⟩ := bind_eq_ok.1 h
  obtain ⟨_, -, h⟩ := bind_eq_ok.1 h
  obtain ⟨unit, hunit, -⟩ := bind_eq_ok.1 h
  exact ⟨_, bind_eq_ok.2 ⟨unit, hunit, rfl⟩⟩

namespace Plan

variable {q : Query} {r : Registry} {p : Plan} {text : String}

theorem constant_of_validate (hparse : Query.parse text = .ok q) (hr : r.SparesBounds)
    (h : q.validate r = .ok ()) {e : Expr} (he : e ∈ q.expressions) :
    Grammatical (.constant r) e := by
  refine (Query.parse_isRead hparse e he).of_spells fun t ht => ?_
  cases t with
  | call name args =>
    intro hname
    obtain ⟨f, hf⟩ := Option.isSome_iff_exists.1 hname
    obtain ⟨clause, hcheck⟩ := Query.checkCall_of_validate h e he (name, args)
      (List.mem_filterMap.2 ⟨_, ht, rfl⟩)
    obtain ⟨parameters, -, hparameters, -⟩ := hr.parameters_ok hf hcheck
    exact ⟨parameters, hparameters⟩
  | _ => trivial

/-- **A valid query has a plan.** -/
theorem build_ok (hparse : Query.parse text = .ok q) (hr : r.SparesBounds)
    (h : q.validate r = .ok ()) : ∃ p, build q r = .ok p := by
  have hall : ∀ e ∈ q.selected ++ q.having.toList, Extracts r e := fun e he =>
    extract_ok (constant_of_validate hparse hr h (Query.mem_expressions he))
  obtain ⟨⟨outputs, slots⟩, houtputs⟩ :=
    outputsOf_ok (fun e he => hall e (List.mem_append_left _ he)) []
  obtain ⟨having, hhaving⟩ := extractOption_ok (e := q.having)
    (fun e he => hall e (List.mem_append_right _ (Option.mem_toList.2 he))) slots
  obtain ⟨timestamp, htimestamp⟩ := EventTime.ofQuery_ok h
  exact ⟨_, bind_eq_ok.2 ⟨(), h, bind_eq_ok.2 ⟨_, houtputs, bind_eq_ok.2 ⟨having, hhaving,
    bind_eq_ok.2 ⟨timestamp, htimestamp, rfl⟩⟩⟩⟩⟩

/-- Fresh accumulators can be made for every group. -/
theorem newAccumulators_ok (hparse : Query.parse text = .ok q) (hr : r.SparesBounds)
    (hbuild : build q r = .ok p) : ∃ accs, p.newAccumulators = .ok accs := by
  obtain ⟨hvalid, -, -⟩ := build_eq_ok hbuild
  refine mapM_create_ok fun s hs => ?_
  rcases (places_of_build hparse hbuild).origin s hs with hnil | ⟨c, hc, hanswers⟩
  · cases hnil
  · obtain ⟨e, he, hmem, -⟩ := mem_aggregates hc
    obtain ⟨clause, hcheck⟩ :=
      Query.checkCall_of_validate hvalid e (Query.mem_expressions he) c hmem
    exact hanswers.create_ok hr hcheck

end Plan

/-! ## Runs -/

namespace WindowedRun

variable {r : WindowedRun} {accs : List Accumulator}

theorem foldlM_ok (hp : r.plan.newAccumulators = .ok accs) (record : Record) (key : GroupKey)
    (contributions : List Value) (windows : List Window) :
    ∃ s, windows.foldlM (fun r w => r.fold record key contributions w) r = .ok s := by
  induction windows generalizing r with
  | nil => exact ⟨r, rfl⟩
  | cons w rest ih =>
    have hgroup := groupFor_eq hp record key w
    obtain ⟨s, hs⟩ := ih (r := { r with arena := r.arena.set w.id _ }) hp
    refine ⟨s, ?_⟩
    rw [List.foldlM_cons]
    exact bind_eq_ok.2 ⟨_, bind_eq_ok.2 ⟨_, hgroup, rfl⟩, hs⟩

/-- No record fails if groups can be begun. -/
theorem process_ok (hp : r.plan.newAccumulators = .ok accs) (now : Int64) (record : Record) :
    ∃ made, r.process now record = .ok made := by
  obtain ⟨fallbacks, htime⟩ := r.recordTime_eq now record
  unfold process
  simp only [htime]
  generalize hended : settle _ _ = ended
  -- neither the windows that ended nor a late record change the plan
  have hplan : ended.2.plan = r.plan := by
    rw [← hended]
    exact congrArg Prod.fst (settle_frame ..)
  generalize (OpenWindows.assign _ _ _).1.windows = windows
  have hframe := (noteLate_same ended.2 windows).2.2.2
  have haccs : (ended.2.noteLate windows).plan.newAccumulators = .ok accs := by
    rw [show (ended.2.noteLate windows).plan = r.plan from (congrArg Prod.fst hframe).trans hplan]
    exact hp
  obtain ⟨s, hs⟩ := foldlM_ok haccs record (r.plan.groupKey record) (r.plan.contributions record)
    windows
  exact ⟨_, bind_eq_ok.2 ⟨s, hs, rfl⟩⟩

end WindowedRun

/-- A row leaves the plan as it is. -/
theorem RowRun.plan_process (r : RowRun) (record : Record) :
    (r.process record).2.plan = r.plan := by
  unfold process
  split
  · rfl
  · simp only
    split
    · next s hs =>
      unfold admit? at hs
      split at hs
      · obtain ⟨distinct, -, rfl⟩ := Option.map_eq_some_iff.1 hs
        rfl
      · cases hs
        rfl
    · rfl

namespace Run

variable {r : Run} {accs : List Accumulator}

/-- **No record fails**, in whatever state, if groups can be begun. -/
theorem process_ok (hp : r.plan.newAccumulators = .ok accs) (now : Int64) (record : Record) :
    ∃ made, r.process now record = .ok made := by
  unfold process
  split
  · cases r with
    | rows r => exact ⟨_, rfl⟩
    | windowed r =>
      obtain ⟨made, hmade⟩ := WindowedRun.process_ok hp now record
      exact ⟨_, bind_eq_ok.2 ⟨made, hmade, rfl⟩⟩
  · exact ⟨_, rfl⟩

/-- A query keeps its plan. -/
theorem plan_of_step {e : Event} {made : Yield} {s : Run} (h : r.step e = .ok (made, s)) :
    s.plan = r.plan := by
  cases r with
  | rows r =>
    cases e with
    | arrival now record =>
      obtain ⟨⟨processed, s'⟩, hprocess, h⟩ := bind_eq_ok.1 h
      cases h
      unfold process at hprocess
      split at hprocess
      · cases hprocess
        exact r.plan_process record
      · cases hprocess
        rfl
    | poll | trigger | discard =>
      cases h
      rfl
  | windowed r =>
    have hkept : ∀ {e : Event} {batches : List Batch} {s : WindowedRun},
        r.step e = .ok (batches, s) → s.plan = r.plan := fun h =>
      congrArg Prod.fst (WindowedRun.step_windows h).2
    cases e with
    | arrival now record =>
      obtain ⟨⟨processed, s'⟩, hprocess, h⟩ := bind_eq_ok.1 h
      cases h
      unfold process at hprocess
      split at hprocess
      · obtain ⟨⟨batches, t⟩, hrecord, hprocess⟩ := bind_eq_ok.1 hprocess
        cases hprocess
        exact hkept (e := .arrival now record) hrecord
      · cases hprocess
        rfl
    | poll now =>
      cases h
      exact hkept (e := .poll now) rfl
    | trigger =>
      cases h
      exact hkept (e := .trigger) rfl
    | discard =>
      cases h
      exact hkept (e := .discard) rfl

/-- **No history fails** if groups can be begun. -/
theorem play_ok (hp : r.plan.newAccumulators = .ok accs) (events : List Event) :
    ∃ made, r.play events = .ok made := by
  induction events generalizing r with
  | nil => exact ⟨_, rfl⟩
  | cons e rest ih =>
    obtain ⟨⟨first, s⟩, hfirst⟩ : ∃ made, r.step e = .ok made := by
      cases e with
      | arrival now record =>
        obtain ⟨made, hmade⟩ := process_ok hp now record
        exact ⟨_, bind_eq_ok.2 ⟨made, hmade, rfl⟩⟩
      | poll | trigger | discard => exact ⟨_, rfl⟩
    obtain ⟨more, hmore⟩ := ih (by rw [plan_of_step hfirst, hp])
    exact ⟨_, bind_eq_ok.2 ⟨_, hfirst, bind_eq_ok.2 ⟨more, hmore, rfl⟩⟩⟩

end Run

/-! ## Accepted queries -/

namespace Expr

/-- The tree is neither a slot behind the first `n` nor the call of an aggregate. -/
def IsServed (r : Registry) (n : Nat) : Expr → Prop
  | .slot index => index < n
  | .call name _ => r.isAggregate name = false
  | _ => True

theorem Resolved.served {r : Registry} {n : Nat} {e : Expr} (he : Resolved r n e) :
    ∀ t ∈ e.subterms, t.IsServed r n := by
  induction he with
  | column | literal => exact forall_subterms trivial nofun
  | slot hi => exact forall_subterms hi nofun
  | binary _ _ _ _ ihl ihr =>
    exact forall_subterms trivial (List.forall_mem_cons.2 ⟨ihl, List.forall_mem_singleton.2 ihr⟩)
  | membership _ _ ihl ihi =>
    exact forall_subterms trivial (List.forall_mem_cons.2
      ⟨ihl, List.forall_mem_singleton.2 (forall_subterms trivial ihi)⟩)
  | unary _ _ ih => exact forall_subterms trivial (List.forall_mem_singleton.2 ih)
  | call hname _ ih => exact forall_subterms hname.scalar ih
  | cases _ _ _ _ iho ihc ihr ihe =>
    exact forall_subterms trivial (forall_parts_cases iho ihc ihr ihe)
  | between _ _ _ _ ih₁ ih₂ ih₃ =>
    exact forall_subterms trivial (List.forall_mem_cons.2
      ⟨ih₁, List.forall_mem_cons.2 ⟨ih₂, List.forall_mem_singleton.2 ih₃⟩⟩)

/-- No aggregate call is left in a resolved tree. -/
theorem Resolved.aggregates_eq_nil {r : Registry} {n : Nat} {e : Expr} (he : Resolved r n e) :
    e.aggregates r = [] := by
  refine List.filter_eq_nil_iff.2 fun c hc => ?_
  obtain ⟨t, ht, hcall⟩ := List.mem_filterMap.1 hc
  cases t with
  | call name args =>
    obtain rfl := Option.some.inj hcall
    exact Bool.eq_false_iff.1 (he.served _ ht)
  | _ => cases hcall

end Expr

/-- What is true of the plan of a query that was accepted. -/
structure Plan.Complete (p : Plan) : Prop where
  /-- the columns and HAVING refer to slots of the plan only -/
  slots : ∀ c ∈ p.rowExpressions, ∀ i, Expr.slot i ∈ c.tree.subterms → i < p.slots.length
  /-- no aggregate call is left -/
  plain : ∀ c ∈ p.recordExpressions ++ p.rowExpressions, c.tree.aggregates p.registry = []
  /-- fresh accumulators can be made -/
  accumulators : ∃ accs, p.newAccumulators = .ok accs
  /-- the query can begin, and has windows if it aggregates -/
  start : ∀ config, (Run.start p config).plan = p ∧
    (Run.start p config).isWindowed = p.isAggregated
  /-- no record fails, whatever the state of the query -/
  process : ∀ run : Run, run.plan = p → ∀ now record, ∃ made, run.process now record = .ok made
  /-- and so no history does -/
  play : ∀ run : Run, run.plan = p → ∀ events, ∃ made, run.play events = .ok made

/-- **Planning fails only where validation does**, unless the registry has an aggregate that is
    called like a bound of the window; and a query with a plan does not fail on any record. -/
theorem Plan.build_complete {q : Query} {r : Registry} {text : String}
    (hparse : Query.parse text = .ok q) (hr : r.SparesBounds) :
    ((∃ p, build q r = .ok p) ↔ q.validate r = .ok ()) ∧
      ∀ p, build q r = .ok p → p.Complete := by
  constructor
  · constructor
    · rintro ⟨p, hp⟩
      exact (build_eq_ok hp).1
    · exact build_ok hparse hr
  · intro p hp
    obtain ⟨-, hregistry, -⟩ := build_eq_ok hp
    obtain ⟨hrecord, hrow⟩ := resolved_of_build hparse hp
    obtain ⟨accs, haccs⟩ := newAccumulators_ok hparse hr hp
    refine ⟨fun c hc i hi => (hrow c hc).served _ hi, fun c hc => ?_, ⟨accs, haccs⟩,
      fun config => ?_, fun run hrun => Run.process_ok (by rw [hrun, haccs]),
      fun run hrun => Run.play_ok (by rw [hrun, haccs])⟩
    · rw [hregistry]
      rcases List.mem_append.1 hc with hc | hc
      · exact (hrecord c hc).aggregates_eq_nil
      · exact (hrow c hc).aggregates_eq_nil
    · unfold Run.start Plan.isAggregated
      cases p.window <;> exact ⟨rfl, rfl⟩

/-- The query of the newest values: it is valid, and its plan cannot fail. -/
theorem Plan.build_complete_newest :
    (Registry.standard 0).SparesBounds ∧
      ∃ p, build .newest (.standard 0) = .ok p ∧ p.Complete := by
  have hspares : (Registry.standard 0).SparesBounds := ⟨by decide +kernel, by decide +kernel⟩
  obtain ⟨hiff, hcomplete⟩ := Plan.build_complete Query.parse_newest hspares
  obtain ⟨p, hp⟩ := hiff.2 (by decide +kernel)
  exact ⟨hspares, p, hp, hcomplete p hp⟩

end StreamSql
