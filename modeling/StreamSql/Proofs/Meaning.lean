/-
  A plan computes what its query says.

  * `outputsOf_yields`, `keeps_eq`: columns and HAVING of a plan are those of its query;
  * `Plan.newGroup_ok`: the accumulators of a plan can be made;
  * `Plan.build_preserves_rows`: the row of a group is the one that the query says.
-/
import StreamSql.Function.Catalog
import StreamSql.Proofs.Extraction

namespace StreamSql

open StreamSql.Expr

/-! ## Columns -/

section

variable {r : Registry} {records : List Record} {table : List Slot} {results : List Value}

/-- The output is the column of the query with slots. -/
inductive SameOutput (r : Registry) (records : List Record) (results : List Value) :
    Output → SelectField → Prop
  | wildcard : SameOutput r records results .wildcard .wildcard
  | column {tree e : Expr} {alias? : Option String} : Same r records results tree e →
      SameOutput r records results
        (.column (SelectField.column e alias?).outputName (.ofExpr tree)) (.column e alias?)

theorem outputsOf_yields (hreal : Realizes r records table results) {fields : List SelectField}
    (hfields : ∀ e ∈ fields.filterMap SelectField.expression?, Grammatical (.checked r) e)
    {slots slots' : List Slot} {outputs : List Output} (hslots : SoundTable r slots)
    (h : Plan.outputsOf r slots fields = .ok (outputs, slots')) :
    Yields r table slots slots' (List.Forall₂ (SameOutput r records results) outputs fields) := by
  induction fields generalizing slots outputs with
  | nil =>
    unfold Plan.outputsOf at h
    cases h
    exact .refl hslots .nil
  | cons field rest ih =>
    have hrest : ∀ e ∈ rest.filterMap SelectField.expression?, Grammatical (.checked r) e :=
      fun e he => hfields e (List.mem_filterMap.2 (by
        obtain ⟨f, hf, hfe⟩ := List.mem_filterMap.1 he
        exact ⟨f, List.mem_cons_of_mem _ hf, hfe⟩))
    unfold Plan.outputsOf at h
    cases field with
    | wildcard =>
      obtain ⟨⟨outputs', slots₁⟩, hmore, h⟩ := bind_eq_ok.1 h
      cases h
      exact (ih hrest hslots hmore).imp (.cons .wildcard)
    | column e alias? =>
      obtain ⟨⟨tree, slots₁⟩, he, h⟩ := bind_eq_ok.1 h
      obtain ⟨⟨outputs', slots₂⟩, hmore, h⟩ := bind_eq_ok.1 h
      cases h
      have hgrammar : Grammatical (.checked r) e :=
        hfields e (List.mem_filterMap.2 ⟨_, List.mem_cons_self, rfl⟩)
      have hfirst := extract_same hreal hgrammar hslots he
      exact hfirst.and (ih hrest hfirst.sound hmore) fun hsame hall => .cons (.column hsame) hall

theorem foldl_addOutput_eq {outputs : List Output} {fields : List SelectField}
    (h : List.Forall₂ (SameOutput r records results) outputs fields) (substitute : Substitute)
    (s : Scope) (row : Row) :
    outputs.foldl (Plan.addOutput substitute { s with aggregates := results }) row =
      fields.foldl (Query.addField substitute (aggregateCalls r records) s) row := by
  induction h generalizing row with
  | nil => rfl
  | cons hfirst _ ih =>
    rw [List.foldl_cons, List.foldl_cons, ih]
    cases hfirst with
    | wildcard => rfl
    | @column tree e alias? hsame =>
      have hvalue : (Compiled.ofExpr tree).eval { s with aggregates := results } =
          e.evalWith (aggregateCalls r records) s := hsame s
      rw [Plan.addOutput, Plan.columnValue, hvalue]
      rfl

theorem keeps_eq {p : Plan} {q : Query} {having : Option Expr}
    (hhaving : p.having = having.map .ofExpr)
    (h : Option.Rel (Same r records results) having q.having) (s : Scope) (row : Row) :
    p.keeps { s with aggregates := results } row =
      q.keeps (aggregateCalls r records) s row := by
  unfold Plan.keeps Query.keeps
  rw [hhaving]
  cases hq : q.having with
  | none =>
    rw [hq] at h
    cases h
    rfl
  | some e =>
    rw [hq] at h
    cases h with
    | @some tree _ hsame =>
      have hvalue : tree.eval { s with aggregates := results, aliases := row } =
          e.evalWith (aggregateCalls r records) { s with aliases := row } :=
        hsame { s with aliases := row }
      simp only [Option.map_some, Compiled.holds, Compiled.ofExpr, Expr.holds, hvalue]
      cases e.evalWith (aggregateCalls r records) { s with aliases := row } <;> rfl

end

/-! ## Accepted queries -/

theorem forM_eq_ok {α : Type} {f : α → Except QueryError Unit} {xs : List α}
    (h : xs.forM f = .ok ()) : ∀ x ∈ xs, f x = .ok () := by
  induction xs with
  | nil => nofun
  | cons x rest ih =>
    obtain ⟨_, hx, hrest⟩ := bind_eq_ok.1 h
    exact List.forall_mem_cons.2 ⟨hx, ih hrest⟩

/-- What stands in SELECT and HAVING is part of the query. -/
theorem Query.mem_expressions {q : Query} {e : Expr} (he : e ∈ q.selected ++ q.having.toList) :
    e ∈ q.expressions := by
  rcases List.mem_append.1 he with he | he
  · exact List.mem_append_left _ (List.mem_append_left _ (List.mem_append_left _ he))
  · exact List.mem_append_right _ he

/-- All calls in a valid query passed the checks. -/
theorem Query.checkCall_of_validate {q : Query} {r : Registry} (h : q.validate r = .ok ()) :
    ∀ e ∈ q.expressions, ∀ c ∈ e.calls, ∃ clause, checkCall r clause c = .ok () := by
  obtain ⟨_, -, h⟩ := bind_eq_ok.1 h
  obtain ⟨_, hselected, h⟩ := bind_eq_ok.1 h
  obtain ⟨_, hcondition, h⟩ := bind_eq_ok.1 h
  obtain ⟨_, hgroupBy, h⟩ := bind_eq_ok.1 h
  obtain ⟨_, hhaving, -⟩ := bind_eq_ok.1 h
  intro e he c hc
  simp only [expressions, List.mem_append] at he
  rcases he with ((he | he) | he) | he
  · exact ⟨_, forM_eq_ok (forM_eq_ok hselected e he) c hc⟩
  · exact ⟨_, forM_eq_ok (forM_eq_ok hcondition e he) c hc⟩
  · exact ⟨_, forM_eq_ok (forM_eq_ok hgroupBy e he) c hc⟩
  · exact ⟨_, forM_eq_ok (forM_eq_ok hhaving e he) c hc⟩

theorem Query.grammatical_of_validate {q : Query} {r : Registry} (h : q.validate r = .ok ())
    {e : Expr} (he : e ∈ q.selected ++ q.having.toList) (hread : IsRead e)
    (hplain : Vocabulary.plain.Spells e) : Grammatical (.checked r) e := by
  refine hread.of_spells fun t ht => ?_
  have hterm := hplain t ht
  cases t with
  | column name => exact hterm
  | literal value => exact hterm
  | call name args =>
    have hcall : (name, args) ∈ e.calls := List.mem_filterMap.2 ⟨_, ht, rfl⟩
    exact ⟨hterm, Query.checkCall_of_validate h e (Query.mem_expressions he) _ hcall⟩
  | _ => trivial

/-- No aggregate has the name of a bound of the window.  Calls of these names are not checked
    against the registry. -/
structure Registry.SparesBounds (r : Registry) : Prop where
  start : r.aggregate? "WINDOW_START" = none
  stop : r.aggregate? "WINDOW_END" = none

theorem Registry.SparesBounds.aggregate?_eq_none {r : Registry} (h : r.SparesBounds)
    {name : String} (hname : (WindowBound.ofName? name).isSome = true) :
    r.aggregate? name = none := by
  have hupper : ∀ {bound : String}, r.aggregate? bound = none → Text.sameAscii name bound = true →
      r.aggregate? name = none := fun hbound hsame => by
    rwa [Registry.aggregate?, Text.upper_of_sameAscii hsame]
  unfold WindowBound.ofName? at hname
  split at hname
  · next hsame => exact hupper h.start hsame
  · split at hname
    · next hsame => exact hupper h.stop hsame
    · cases hname

/-- An aggregate call that passed the checks has constant parameters, and the aggregate accepts
    them. -/
theorem Registry.SparesBounds.parameters_ok {r : Registry} (hr : r.SparesBounds)
    {clause name : String} {args : List Expr} {f : AggregateFunction}
    (hf : r.aggregate? name = some f) (h : checkCall r clause (name, args) = .ok ()) :
    ∃ parameters acc, parameterValues r name args = .ok parameters ∧
      f.create parameters = .ok acc := by
  unfold checkCall at h
  simp only at h
  split at h
  · cases h
  · split at h
    · next hname =>
      rw [hr.aggregate?_eq_none hname] at hf
      cases hf
    · split at h
      · obtain ⟨_, -, h⟩ := bind_eq_ok.1 h
        unfold checkParameters at h
        rw [hf] at h
        obtain ⟨parameters, hparameters, h⟩ := bind_eq_ok.1 h
        obtain ⟨acc, hacc, -⟩ := bind_eq_ok.1 h
        exact ⟨parameters, acc, hparameters, hacc⟩
      · cases h

/-- The slot of a call that passed the checks has an accumulator. -/
theorem Slot.Answers.create_ok {r : Registry} {s : Slot} {clause name : String} {args : List Expr}
    (h : s.Answers r name args) (hr : r.SparesBounds)
    (hcheck : checkCall r clause (name, args) = .ok ()) : ∃ acc, s.create = .ok acc := by
  obtain ⟨parameters, acc, hparameters, hacc⟩ := hr.parameters_ok h.function hcheck
  obtain rfl : s.parameters = parameters :=
    Except.ok.inj (h.parameters.symm.trans hparameters)
  exact ⟨acc, hacc⟩

theorem Slot.Sound.create_ok {r : Registry} {s : Slot} (h : s.Sound r) (hr : r.SparesBounds) :
    ∃ acc, s.create = .ok acc := by
  obtain ⟨name, args, hcall, hanswers⟩ := h
  obtain ⟨clause, hcheck⟩ : ∃ clause, checkCall r clause (name, args) = .ok () := by
    cases hcall with
    | call h _ => exact h.2
  exact hanswers.create_ok hr hcheck

theorem mapM_create_ok {slots : List Slot} (h : ∀ s ∈ slots, ∃ acc, s.create = .ok acc) :
    ∃ accs, slots.mapM Slot.create = .ok accs := by
  induction slots with
  | nil => exact ⟨[], rfl⟩
  | cons s rest ih =>
    obtain ⟨acc, hacc⟩ := h s List.mem_cons_self
    obtain ⟨accs, haccs⟩ := ih fun a ha => h a (List.mem_cons_of_mem _ ha)
    exact ⟨acc :: accs, by rw [List.mapM_cons]; exact bind_eq_ok.2 ⟨acc, hacc,
      bind_eq_ok.2 ⟨accs, haccs, rfl⟩⟩⟩

namespace Plan

variable {q : Query} {r : Registry} {p : Plan}

/-- The parts of a plan. -/
theorem build_eq_ok (h : build q r = .ok p) :
    q.validate r = .ok () ∧ p.registry = r ∧ ∃ slots having,
      outputsOf r [] q.fields = .ok (p.outputs, slots) ∧
      extractOption r slots q.having = .ok (having, p.slots) ∧
      p.having = having.map .ofExpr := by
  obtain ⟨_, hvalid, h⟩ := bind_eq_ok.1 h
  obtain ⟨⟨outputs, slots⟩, houtputs, h⟩ := bind_eq_ok.1 h
  obtain ⟨⟨having, slots'⟩, hhaving, h⟩ := bind_eq_ok.1 h
  obtain ⟨timestamp, -, h⟩ := bind_eq_ok.1 h
  cases h
  exact ⟨hvalid, rfl, slots, having, houtputs, hhaving, rfl⟩

/-- The outputs and HAVING of a plan are those of the query with slots. -/
theorem same_of_build (h : build q r = .ok p)
    (hq : ∀ e ∈ q.selected ++ q.having.toList, Grammatical (.checked r) e)
    {records : List Record} {results : List Value}
    (hreal : Realizes r records p.slots results) :
    List.Forall₂ (SameOutput r records results) p.outputs q.fields ∧
      ∃ having, p.having = having.map .ofExpr ∧
        Option.Rel (Same r records results) having q.having := by
  obtain ⟨-, -, slots, having, houtputs, hextract, hhaving⟩ := build_eq_ok h
  have hfirst := outputsOf_yields hreal (fun e he => hq e (List.mem_append_left _ he))
    soundTable_nil houtputs
  have hsecond := extractOption_yields
    (fun e he => extract_same hreal (hq e (List.mem_append_right _ (Option.mem_toList.2 he))))
    hfirst.sound hextract
  exact ⟨hfirst.holds hsecond.grows, having, hhaving, hsecond.holds (List.prefix_refl _)⟩

/-- All slots of a plan are those of calls in the query. -/
theorem sound_of_build (h : build q r = .ok p)
    (hq : ∀ e ∈ q.selected ++ q.having.toList, Grammatical (.checked r) e) :
    SoundTable r p.slots := by
  obtain ⟨-, -, slots, having, houtputs, hextract, -⟩ := build_eq_ok h
  -- the table of slots does not matter here, and the empty one has no values to agree with
  have hreal : Realizes r [] [] [] := fun i s name args hi => by simp at hi
  have hfirst := outputsOf_yields hreal (fun e he => hq e (List.mem_append_left _ he))
    soundTable_nil houtputs
  exact (extractOption_yields
    (fun e he => extract_same hreal (hq e (List.mem_append_right _ (Option.mem_toList.2 he))))
    hfirst.sound hextract).sound

/-- A new group can be made of every record. -/
theorem newGroup_ok (h : build q r = .ok p)
    (hq : ∀ e ∈ q.selected ++ q.having.toList, Grammatical (.checked r) e)
    (hr : r.SparesBounds) (first : Record) : ∃ g, p.newGroup first = .ok g := by
  obtain ⟨accs, haccs⟩ := mapM_create_ok fun s hs => (sound_of_build h hq s hs).create_ok hr
  exact ⟨⟨first, accs⟩, bind_eq_ok.2 ⟨accs, haccs, rfl⟩⟩

theorem groupRow?_of_build (h : build q r = .ok p)
    (hq : ∀ e ∈ q.selected ++ q.having.toList, Grammatical (.checked r) e) {first : Record}
    {g : Group} (hg : p.newGroup first = .ok g) (rest : List Record) (substitute : Substitute)
    (bounds : Bounds) :
    p.groupRow? substitute bounds
        ((first :: rest).foldl (fun g record => g.add (p.contributions record)) g) =
      q.groupRow? r substitute bounds first rest := by
  obtain ⟨accs, haccs, hg⟩ := bind_eq_ok.1 hg
  obtain rfl : (⟨first, accs⟩ : Group) = g := Except.ok.inj hg
  obtain ⟨-, hregistry, -⟩ := build_eq_ok h
  have hreal := realizes_groupOf haccs (first :: rest)
  rw [hregistry] at hreal
  obtain ⟨houtputs, having, hhaving, hsame⟩ := same_of_build h hq hreal
  show p.groupRow? substitute bounds (p.groupOf accs (first :: rest)) = _
  let s : Scope := { record := first, registry := r, window := bounds }
  have hscope : p.groupScope (p.groupOf accs (first :: rest)) bounds =
      { s with aggregates := (p.groupOf accs (first :: rest)).results } := by
    rw [groupScope, sample_groupOf, hregistry]
    rfl
  have hrow : p.project substitute { s with aggregates := (p.groupOf accs (first :: rest)).results } =
      q.rowOf substitute (aggregateCalls r (first :: rest)) s :=
    foldl_addOutput_eq houtputs substitute s []
  have hkeeps := keeps_eq hhaving hsame s (q.rowOf substitute (aggregateCalls r (first :: rest)) s)
  unfold groupRow? Query.groupRow?
  simp only [hscope, hrow, hkeeps]
  rfl

/-- **Planning preserves what a query says.**  Every group of a plan can be begun, unless the
    registry has an aggregate that is called like a bound of the window, and the row that its
    accumulators give is the one that the query says of its records. -/
theorem build_preserves_rows {text : String} (hparse : Query.parse text = .ok q)
    (hplain : ∀ e ∈ q.selected ++ q.having.toList, Vocabulary.plain.Spells e)
    (hbuild : build q r = .ok p) (first : Record) :
    (r.SparesBounds → ∃ g, p.newGroup first = .ok g) ∧
      ∀ g, p.newGroup first = .ok g →
        ∀ (rest : List Record) (substitute : Substitute) (bounds : Bounds),
          p.groupRow? substitute bounds
              ((first :: rest).foldl (fun g record => g.add (p.contributions record)) g) =
            q.groupRow? r substitute bounds first rest := by
  obtain ⟨hvalid, -, -⟩ := build_eq_ok hbuild
  have hread := Query.parse_isRead hparse
  have hq : ∀ e ∈ q.selected ++ q.having.toList, Grammatical (.checked r) e := fun e he =>
    Query.grammatical_of_validate hvalid he (hread e (Query.mem_expressions he)) (hplain e he)
  exact ⟨fun hr => newGroup_ok hbuild hq hr first, fun g hg rest substitute bounds =>
    groupRow?_of_build hbuild hq hg rest substitute bounds⟩

end Plan

namespace Query

open Token

/-- The last value of a group, if it is greater than the first one. -/
def newest : Query where
  fields := [.column (.call "LAST" [.column "v"]) (some "newest")]
  distinct := false
  source := "s"
  condition := none
  groupBy := []
  window := some (.counting 2)
  having := some (.binary .greaterThan (.column "newest") (.call "first" [.column "v"]))
  limit := none
  properties := []

theorem parse_newest : parse ("SELECT LAST(v) AS newest FROM s " ++
    "GROUP BY CountingWindow(2) HAVING newest > first(v)") = .ok newest := by
  let window : List Token := [⟨.identifier, "CountingWindow", 41⟩, ⟨.leftParen, "(", 55⟩,
    ⟨.number, "2", 56⟩, ⟨.rightParen, ")", 57⟩]
  let condition : List Token := [⟨.identifier, "newest", 66⟩, ⟨.greaterThan, ">", 73⟩,
    ⟨.identifier, "first", 75⟩, ⟨.leftParen, "(", 80⟩, ⟨.identifier, "v", 81⟩,
    ⟨.rightParen, ")", 82⟩, ⟨.eof, "", 83⟩]
  let having : List Token := ⟨.having, "HAVING", 59⟩ :: condition
  let grouping : List Token := ⟨.group, "GROUP", 32⟩ :: ⟨.by_, "BY", 38⟩ :: (window ++ having)
  let source : List Token := ⟨.from, "FROM", 25⟩ :: ⟨.identifier, "s", 30⟩ :: grouping
  let fields : List Token := [⟨.identifier, "LAST", 7⟩, ⟨.leftParen, "(", 11⟩,
    ⟨.identifier, "v", 12⟩, ⟨.rightParen, ")", 13⟩, ⟨.as_, "AS", 15⟩,
    ⟨.identifier, "newest", 18⟩] ++ source
  have htokens : tokenize ("SELECT LAST(v) AS newest FROM s " ++
      "GROUP BY CountingWindow(2) HAVING newest > first(v)") =
      .ok (⟨.select, "SELECT", 0⟩ :: fields) := by decide +kernel
  have hfields : readFields fields = .ok (newest.fields, ⟨source, by decide⟩) := by cbv
  have htwo : numberLiteral? "2" = some (.integer 2) := by decide +kernel
  have hwindow : readAt .unlimited .or (window ++ having) =
      .ok (.call "CountingWindow" [.literal (.integer 2)], ⟨having, by decide⟩) := by
    simp [window, having, condition, readAt, readChain, readComparison, readPrimary, readArguments,
      readArgumentList, skip?, expect, constant?, htwo, Level.operator?, comparisonOf?, bind,
      Except.bind, pure, Except.pure]
  have hgrouping : readGrouping {} (window ++ having) =
      .ok (⟨[], some (.counting 2)⟩, ⟨having, by decide⟩) := by
    unfold readGrouping
    exact bind_eq_ok.2 ⟨_, hwindow, bind_eq_ok.2 ⟨_, rfl, rfl⟩⟩
  have hcondition : readAt .unlimited .or condition =
      .ok (.binary .greaterThan (.column "newest") (.call "first" [.column "v"]),
        ⟨[⟨.eof, "", 83⟩], by decide⟩) := by cbv
  have hgroup : readGroupBy grouping = .ok (⟨[], some (.counting 2)⟩, having) :=
    bind_eq_ok.2 ⟨_, rfl, bind_eq_ok.2 ⟨_, hgrouping, rfl⟩⟩
  have hhaving : readClause .having having = .ok (newest.having, [⟨.eof, "", 83⟩]) :=
    bind_eq_ok.2 ⟨_, hcondition, rfl⟩
  refine bind_eq_ok.2 ⟨_, htokens, bind_eq_ok.2 ⟨_, rfl, bind_eq_ok.2 ⟨_, hfields, ?_⟩⟩⟩
  refine bind_eq_ok.2 ⟨_, rfl, bind_eq_ok.2 ⟨_, rfl, ?_⟩⟩
  refine bind_eq_ok.2 ⟨_, rfl, bind_eq_ok.2 ⟨_, rfl, ?_⟩⟩
  refine bind_eq_ok.2 ⟨_, hgroup, bind_eq_ok.2 ⟨_, hhaving, ?_⟩⟩
  exact bind_eq_ok.2 ⟨_, rfl, bind_eq_ok.2 ⟨_, rfl, bind_eq_ok.2 ⟨_, rfl, rfl⟩⟩⟩

/-- Its names need no quotes. -/
theorem spells_newest : ∀ e ∈ newest.selected ++ newest.having.toList,
    Vocabulary.plain.Spells e := by
  have hterms : ∀ e ∈ newest.selected ++ newest.having.toList, ∀ t ∈ e.subterms,
      t ∈ [.call "LAST" [.column "v"], .column "v",
        .binary .greaterThan (.column "newest") (.call "first" [.column "v"]),
        .column "newest", .call "first" [.column "v"]] := by
    simp [newest, selected, SelectField.expression?, subterms, subtermsOfList]
  have hall : ∀ t ∈ [.call "LAST" [.column "v"], .column "v",
      .binary .greaterThan (.column "newest") (.call "first" [.column "v"]),
      .column "newest", .call "first" [.column "v"]], Vocabulary.plain.Has t := by
    have hcalls : Token.isName "LAST" = true ∧ Token.isName "first" = true := by decide
    have hcolumns : Token.isPath "v" = true ∧ Token.isPath "newest" = true := by decide
    simp only [List.forall_mem_cons]
    exact ⟨hcalls.1, hcolumns.1, trivial, hcolumns.2, hcalls.2, List.forall_mem_nil _⟩
  exact fun e he t ht => hall t (hterms e he t ht)

end Query

/-- The row of the values 5 and 7, in which 7 is the newest and greater than the first. -/
theorem Plan.build_preserves_rows_newest :
    let records : List Record := [⟨[("v", .integer 5)]⟩, ⟨[("v", .integer 7)]⟩]
    ∃ p g, Plan.build Query.newest (.standard 0) = .ok p ∧
      p.newGroup ⟨[("v", .integer 5)]⟩ = .ok g ∧
      p.groupRow? .null ⟨0, 1⟩
          (records.foldl (fun g record => g.add (p.contributions record)) g) =
        some [("newest", .integer 7)] := by
  intro records
  obtain ⟨p, hp⟩ : ∃ p, Plan.build Query.newest (.standard 0) = .ok p := by
    have hsome : (Plan.build Query.newest (.standard 0)).toOption.isSome = true := by
      decide +kernel
    cases h : Plan.build Query.newest (.standard 0) with
    | ok p => exact ⟨p, rfl⟩
    | error e =>
      rw [h] at hsome
      cases hsome
  obtain ⟨hgroup, hrow⟩ := Plan.build_preserves_rows Query.parse_newest Query.spells_newest hp
    ⟨[("v", .integer 5)]⟩
  obtain ⟨g, hg⟩ := hgroup ⟨rfl, rfl⟩
  exact ⟨p, g, hp, hg, hrow g hg [⟨[("v", .integer 7)]⟩] .null ⟨0, 1⟩⟩

end StreamSql
