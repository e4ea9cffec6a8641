/-
  Queries without windows as pipelines.

  * `Plan.pipeline`: the rows of the records that pass WHERE, under DISTINCT the first
    occurrence of each row, and under LIMIT the first ones of these;
  * `Plan.outcomeAfter`: what becomes of a record, given the records before it;
  * `RowRun.after`: the state of a query is a function of the records so far: it has counted the
    rows of the pipeline and under DISTINCT it keeps their keys;
  * `process_after`: one record more;
  * `trace_pipeline`: the rows of any history are those of the pipeline.

  A duplicate never counts towards LIMIT, and no row is kept that was not made, because LIMIT is
  looked at before the keys are and both change together (`pipeline_concat`).
-/
import StreamSql.Proofs.Proper
import StreamSql.Proofs.Trace

namespace StreamSql

/-! ## First occurrences -/

theorem eraseDupsBy_loop_concat {α : Type} (r : α → α → Bool) (x : α) (l acc : List α) :
    List.eraseDupsBy.loop r (l ++ [x]) acc =
      if (List.eraseDupsBy.loop r l acc).any (r x) then List.eraseDupsBy.loop r l acc
      else List.eraseDupsBy.loop r l acc ++ [x] := by
  induction l generalizing acc with
  | nil =>
    cases h : acc.any (r x) <;> simp [List.eraseDupsBy.loop, h]
  | cons a l ih =>
    cases h : acc.any (r a) <;> simp only [List.cons_append, List.eraseDupsBy.loop, h, ih]

/-- One item more is kept unless one like it was. -/
theorem eraseDupsBy_concat {α : Type} (r : α → α → Bool) (x : α) (l : List α) :
    (l ++ [x]).eraseDupsBy r =
      if (l.eraseDupsBy r).any (r x) then l.eraseDupsBy r else l.eraseDupsBy r ++ [x] :=
  eraseDupsBy_loop_concat r x l []

/-- The rows have the same columns, with values equal as keys. -/
def Row.equal (a b : Row) : Bool :=
  Value.keyEq (.map a) (.map b)

namespace DistinctRows

/-- The rows met, the latest one first. -/
def ofRows (rows : List Row) : DistinctRows :=
  ⟨(rows.map keyOf).reverse⟩

/-- **A row counts as met exactly if one equal to it was**: its key is not mistaken for another. -/
theorem contains_ofRows {rows : List Row} {row : Row}
    (hrows : ∀ old ∈ rows, (Value.map old).Proper) (hrow : (Value.map row).Proper) :
    (ofRows rows).contains row = rows.any (Row.equal row) := by
  have hkey : ∀ r : Row, (Value.map r).Proper → (keyOf r).values = [.map r] := fun r hr =>
    congrArg (fun v => [v]) (Value.distinct_of_proper hr)
  have hsame : ∀ old ∈ rows, (keyOf old).same (keyOf row) = Row.equal row old := by
    intro old hold
    rw [GroupKey.same_comm, Bool.eq_iff_iff, GroupKey.same_iff, hkey row hrow,
      hkey old (hrows old hold)]
    simp [Value.keyEqItems, Row.equal]
  rw [contains, ofRows, List.any_reverse, List.any_map, Bool.eq_iff_iff, List.any_eq_true,
    List.any_eq_true]
  exact exists_congr fun old => and_congr_right fun hold => by rw [Function.comp, hsame old hold]

end DistinctRows

/-! ## Pipelines -/

namespace Plan

variable (p : Plan) (substitute : Substitute)

/-- The row that a record makes. -/
def rowFor (record : Record) : Row :=
  p.project substitute (p.scope record)

/-- Under LIMIT, no more than so many rows are made. -/
def isFull (count : Nat) : Bool :=
  match p.query.limit with
  | some n => n ≤ count
  | none => false

/-- The rows of the records that pass WHERE, under DISTINCT the first occurrence of each. -/
def survivors (records : List Record) : List Row :=
  let rows := (records.filter p.accepts).map (p.rowFor substitute)
  if p.query.distinct then rows.eraseDupsBy Row.equal else rows

/-- The rows of a query without windows: under LIMIT, the first survivors only. -/
def pipeline (records : List Record) : List Row :=
  match p.query.limit with
  | some n => (p.survivors substitute records).take n
  | none => p.survivors substitute records

/-- What becomes of a record after others: it fails WHERE, or the rows of LIMIT were made, or
    its row was made and has to be distinct, or it makes its row. -/
def outcomeAfter (past : List Record) (record : Record) : Outcome :=
  let made := p.pipeline substitute past
  if !p.accepts record then .filtered
  else if p.isFull made.length then .limitReached
  else if p.query.distinct && made.any (Row.equal (p.rowFor substitute record)) then .duplicate
  else .projected

theorem pipeline_nil : p.pipeline substitute [] = [] := by
  cases h : p.query.limit <;> simp [pipeline, survivors, h]

theorem survivors_concat (past : List Record) (record : Record) :
    p.survivors substitute (past ++ [record]) =
      if !p.accepts record ∨ p.query.distinct ∧
          (p.survivors substitute past).any (Row.equal (p.rowFor substitute record)) then
        p.survivors substitute past
      else p.survivors substitute past ++ [p.rowFor substitute record] := by
  unfold survivors
  cases haccepts : p.accepts record with
  | false => simp [List.filter_append, haccepts]
  | true =>
    cases p.query.distinct with
    | false => simp [List.filter_append, haccepts]
    | true => simp [List.filter_append, haccepts, eraseDupsBy_concat]

theorem survivors_prefix (past : List Record) (record : Record) :
    p.survivors substitute past <+: p.survivors substitute (past ++ [record]) := by
  rw [survivors_concat]
  split
  · exact List.prefix_rfl
  · exact List.prefix_append _ _

/-- As long as LIMIT is not reached, all survivors are in the pipeline. -/
theorem pipeline_of_not_full {records : List Record}
    (h : p.isFull (p.pipeline substitute records).length = false) :
    p.pipeline substitute records = p.survivors substitute records := by
  unfold isFull pipeline at *
  cases hlimit : p.query.limit with
  | none => rfl
  | some n =>
    simp only [hlimit, List.length_take, decide_eq_false_iff_not] at h ⊢
    exact List.take_of_length_le (by omega)

/-- Until LIMIT is reached, there is room for one survivor more. -/
theorem pipeline_of_survivors {records : List Record} {made : List Row} {row : Row}
    (h : p.isFull made.length = false) (hrecords : p.survivors substitute records = made ++ [row]) :
    p.pipeline substitute records = made ++ [row] := by
  unfold isFull pipeline at *
  cases hlimit : p.query.limit with
  | none => exact hrecords
  | some n =>
    simp only [hlimit, decide_eq_false_iff_not] at h ⊢
    rw [hrecords]
    exact List.take_of_length_le (by simp; omega)

/-- Once LIMIT is reached, no survivor makes a difference. -/
theorem pipeline_of_full {past records : List Record}
    (h : p.isFull (p.pipeline substitute past).length = true)
    (hbegins : p.survivors substitute past <+: p.survivors substitute records) :
    p.pipeline substitute records = p.pipeline substitute past := by
  unfold isFull pipeline at *
  cases hlimit : p.query.limit with
  | none => simp [hlimit] at h
  | some n =>
    obtain ⟨more, hmore⟩ := hbegins
    simp only [hlimit, List.length_take, decide_eq_true_eq] at h ⊢
    rw [← hmore, List.take_append_of_le_length (by omega)]

/-- **One record more** adds its row at the end, if that is what becomes of it, and otherwise
    leaves the rows as they are. -/
theorem pipeline_concat (past : List Record) (record : Record) :
    p.pipeline substitute (past ++ [record]) = p.pipeline substitute past ++
      if p.outcomeAfter substitute past record = .projected then [p.rowFor substitute record]
      else [] := by
  have hnext := p.survivors_concat substitute past record
  have hsame : p.survivors substitute (past ++ [record]) = p.survivors substitute past →
      p.pipeline substitute (past ++ [record]) = p.pipeline substitute past := fun h => by
    rw [pipeline, h, ← pipeline]
  unfold outcomeAfter
  by_cases haccepts : p.accepts record = true
  · by_cases hfull : p.isFull (p.pipeline substitute past).length = true
    · have hpipeline := p.pipeline_of_full substitute hfull (p.survivors_prefix substitute past record)
      simpa [haccepts, hfull] using hpipeline
    · have hroom : p.isFull (p.pipeline substitute past).length = false := by simpa using hfull
      rw [← p.pipeline_of_not_full substitute hroom] at hnext hsame
      by_cases hmet : (p.query.distinct && (p.pipeline substitute past).any
          (Row.equal (p.rowFor substitute record))) = true
      · have hpipeline := hsame (hnext.trans (if_pos (Or.inr (Bool.and_eq_true_iff.1 hmet))))
        simpa [haccepts, hroom, hmet] using hpipeline
      · have hpipeline := p.pipeline_of_survivors substitute hroom (hnext.trans (if_neg (by
          simpa [haccepts] using hmet)))
        simpa [haccepts, hroom, hmet] using hpipeline
  · have hpipeline := hsame (hnext.trans (if_pos (Or.inl (by simpa using haccepts))))
    simpa [haccepts] using hpipeline

theorem proper_rowFor (hfunctions : p.registry.Proper) {record : Record} (hrecord : record.Proper) :
    (Value.map (p.rowFor substitute record)).Proper := by
  have hscope : (p.scope record).Proper := ⟨hrecord, hfunctions, by simp [scope], by simp [scope]⟩
  exact p.proper_project hscope substitute

/-- The rows that proper records make are proper. -/
theorem proper_pipeline (hfunctions : p.registry.Proper) {records : List Record}
    (hrecords : ∀ record ∈ records, record.Proper) :
    ∀ row ∈ p.pipeline substitute records, (Value.map row).Proper := by
  induction records using List.reverseRecOn with
  | nil => simp [pipeline_nil]
  | append_singleton past record ih =>
    intro row hrow
    rw [pipeline_concat] at hrow
    rcases List.mem_append.1 hrow with hold | hnew
    · exact ih (fun r hr => hrecords r (List.mem_append_left _ hr)) row hold
    · split at hnew
      · obtain rfl := List.mem_singleton.1 hnew
        exact p.proper_rowFor substitute hfunctions (hrecords record (by simp))
      · cases hnew

/-! ## Runs -/

/-- The answer to a record after others: a batch of its row, if it makes one. -/
def answerTo (past : List Record) (record : Record) : Answer :=
  let outcome := p.outcomeAfter substitute past record
  { outcome
    batches := if outcome = .projected then [⟨[p.rowFor substitute record], none⟩] else [] }

/-- The answers to a history, given the records before it; no call but an arrival has any. -/
def answers (past : List Record) : List Event → List Answer
  | [] => []
  | e :: rest =>
    match e.record? with
    | some record => p.answerTo substitute past record :: answers (past ++ [record]) rest
    | none => {} :: answers past rest

end Plan

namespace RowRun

variable (p : Plan) (substitute : Substitute)

/-- The query after it made these rows: they are counted, and their keys are kept if they have to
    be distinct. -/
def ofRows (made : List Row) : RowRun :=
  { plan := p, substitute, emitted := made.length
    distinct := if p.query.distinct then .ofRows made else {} }

/-- A row is admitted unless it has to be distinct and an equal one was made; then it is counted
    and kept. -/
theorem admit?_ofRows {made : List Row} {row : Row} (hmade : ∀ old ∈ made, (Value.map old).Proper)
    (hrow : (Value.map row).Proper) :
    (ofRows p substitute made).admit? row =
      if p.query.distinct && made.any (Row.equal row) then none
      else some (ofRows p substitute (made ++ [row])) := by
  have hcontains := DistinctRows.contains_ofRows hmade hrow
  unfold admit? ofRows
  cases hdistinct : p.query.distinct with
  | false => simp
  | true =>
    cases hany : made.any (Row.equal row) with
    | true => simp [DistinctRows.insert?, hcontains, hany]
    | false =>
      have hkeys : DistinctRows.ofRows (made ++ [row]) =
          ⟨DistinctRows.keyOf row :: (DistinctRows.ofRows made).keys⟩ := by
        simp [DistinctRows.ofRows]
      simp [DistinctRows.insert?, hcontains, hany, hkeys]

/-- A record that passes WHERE, after others. -/
theorem process_ofRows (hfunctions : p.registry.Proper) {past : List Record} {record : Record}
    (hpast : ∀ r ∈ past, r.Proper) (hrecord : record.Proper) (haccepts : p.accepts record = true) :
    (ofRows p substitute (p.pipeline substitute past)).process record =
      (⟨p.outcomeAfter substitute past record, (p.answerTo substitute past record).batches⟩,
        ofRows p substitute (p.pipeline substitute (past ++ [record]))) := by
  have hadmit := admit?_ofRows p substitute (p.proper_pipeline substitute hfunctions hpast)
    (p.proper_rowFor substitute hfunctions hrecord)
  have hnext := p.pipeline_concat substitute past record
  have hexhausted : (ofRows p substitute (p.pipeline substitute past)).isExhausted =
      p.isFull (p.pipeline substitute past).length := rfl
  have hrow : (ofRows p substitute (p.pipeline substitute past)).plan.project
      (ofRows p substitute (p.pipeline substitute past)).substitute
      ((ofRows p substitute (p.pipeline substitute past)).plan.scope record) =
        p.rowFor substitute record := rfl
  unfold process
  simp only [hexhausted, hrow, hadmit]
  by_cases hfull : p.isFull (p.pipeline substitute past).length = true
  · have houtcome : p.outcomeAfter substitute past record = .limitReached := by
      simp [Plan.outcomeAfter, haccepts, hfull]
    simp [hfull, hnext, houtcome, Plan.answerTo]
  · by_cases hmet : (p.query.distinct && (p.pipeline substitute past).any
        (Row.equal (p.rowFor substitute record))) = true
    · have houtcome : p.outcomeAfter substitute past record = .duplicate := by
        simp [Plan.outcomeAfter, haccepts, hfull, hmet]
      simp [hfull, hmet, hnext, houtcome, Plan.answerTo]
    · have houtcome : p.outcomeAfter substitute past record = .projected := by
        simp [Plan.outcomeAfter, haccepts, hfull, hmet]
      simp [hfull, hmet, hnext, houtcome, Plan.answerTo]

end RowRun

namespace Run

variable (p : Plan) (substitute : Substitute)

/-- The query after some records. -/
def after (past : List Record) : Run :=
  rows (.ofRows p substitute (p.pipeline substitute past))

theorem start_eq {p : Plan} (hwindow : p.window = none) (config : Config) :
    start p config = after p config.substitute [] := by
  unfold start after
  rw [hwindow, p.pipeline_nil]
  cases h : p.query.distinct <;> simp [RowRun.ofRows, DistinctRows.ofRows, h]

/-- **One record more**: its outcome is the one after the records before it, and the query goes on
    as after all of them. -/
theorem process_after (hfunctions : p.registry.Proper) {past : List Record} {record : Record}
    (hpast : ∀ r ∈ past, r.Proper) (hrecord : record.Proper) (now : Int64) :
    (after p substitute past).process now record =
      .ok (⟨p.outcomeAfter substitute past record, (p.answerTo substitute past record).batches⟩,
        after p substitute (past ++ [record])) := by
  unfold process
  rw [show (after p substitute past).plan = p from rfl]
  by_cases haccepts : p.accepts record = true
  · rw [if_pos haccepts]
    simp only [after, RowRun.process_ofRows p substitute hfunctions hpast hrecord haccepts]
  · have houtcome : p.outcomeAfter substitute past record = .filtered := by
      simp [Plan.outcomeAfter, haccepts]
    rw [if_neg haccepts]
    simp [after, p.pipeline_concat, houtcome, Plan.answerTo]

/-- One call after the other, from any point on. -/
theorem trace_after (hfunctions : p.registry.Proper) (events : List Event) {past : List Record}
    (hrecords : ∀ r ∈ past ++ events.filterMap Event.record?, r.Proper) :
    (after p substitute past).trace events =
      .ok (p.answers substitute past events,
        after p substitute (past ++ events.filterMap Event.record?)) := by
  induction events generalizing past with
  | nil => simp [trace, Plan.answers]
  | cons e rest ih =>
    cases hrecord : e.record? with
    | none =>
      have hrespond : (after p substitute past).respond e = .ok ({}, after p substitute past) := by
        cases e with
        | arrival now record => cases hrecord
        | poll _ | trigger | discard => rfl
      rw [List.filterMap_cons_none hrecord] at hrecords ⊢
      rw [Plan.answers, hrecord]
      exact trace_cons_ok hrespond (ih hrecords)
    | some record =>
      have hrespond : (after p substitute past).respond e =
          .ok (p.answerTo substitute past record, after p substitute (past ++ [record])) := by
        cases e with
        | arrival now record =>
          cases hrecord
          have hprocess := process_after p substitute hfunctions
            (fun r hr => hrecords r (List.mem_append_left _ hr))
            (hrecords record (by simp [Event.record?])) now
          simp only [respond, hprocess]
          rfl
        | poll _ | trigger | discard => cases hrecord
      rw [List.filterMap_cons_some hrecord, List.append_cons] at hrecords ⊢
      rw [Plan.answers, hrecord]
      exact trace_cons_ok hrespond (ih hrecords)

end Run

namespace Plan

variable (p : Plan) (substitute : Substitute)

theorem rows_answerTo (past : List Record) (record : Record) :
    p.pipeline substitute past ++ (p.answerTo substitute past record).rows =
      p.pipeline substitute (past ++ [record]) := by
  rw [pipeline_concat, answerTo, Answer.rows]
  by_cases h : p.outcomeAfter substitute past record = .projected <;> simp [h]

theorem rows_answers (events : List Event) (past : List Record) :
    p.pipeline substitute past ++ (p.answers substitute past events).flatMap Answer.rows =
      p.pipeline substitute (past ++ events.filterMap Event.record?) := by
  induction events generalizing past with
  | nil => simp [answers]
  | cons e rest ih =>
    rw [answers]
    cases hrecord : e.record? with
    | none =>
      rw [List.filterMap_cons_none hrecord, List.flatMap_cons]
      exact ih past
    | some record =>
      rw [List.filterMap_cons_some hrecord, List.flatMap_cons, ← List.append_assoc, rows_answerTo,
        ih, List.append_assoc, List.singleton_append]

/-- **A query without windows is a pipeline.**  Whatever else happens, no call fails, every record
    becomes what WHERE, LIMIT and DISTINCT say after the records before it, and all rows together
    are those of the pipeline. -/
theorem trace_pipeline (hwindow : p.window = none) (config : Config)
    (hfunctions : p.registry.Proper) (events : List Event)
    (hrecords : ∀ record ∈ events.filterMap Event.record?, record.Proper) :
    ∃ r, (Run.start p config).trace events = .ok (p.answers config.substitute [] events, r) ∧
      (p.answers config.substitute [] events).flatMap Answer.rows =
        p.pipeline config.substitute (events.filterMap Event.record?) := by
  have htrace := @Run.trace_after p config.substitute hfunctions events [] hrecords
  have hrows := p.rows_answers config.substitute events []
  rw [p.pipeline_nil] at hrows
  exact ⟨_, (Run.start_eq hwindow config).symm ▸ htrace, hrows⟩

/-- `SELECT DISTINCT a FROM s WHERE b LIMIT 2`: a row met before, a record that fails WHERE and a
    record after the last row. -/
theorem trace_pipeline_distinct :
    let p : Plan :=
      { query := ⟨[.column (.column "a") none], true, "s", some (.column "b"), [], none, none,
          some 2, []⟩
        condition := some (.ofExpr (.column "b")), groupBy := [], slots := []
        outputs := [.column "a" (.ofExpr (.column "a"))], having := none, window := none
        timestamp := none, registry := .standard 0 }
    let record (a : Int64) (b : Bool) : Record := ⟨[("a", .integer a), ("b", .boolean b)]⟩
    let events : List Event := [.arrival 0 (record 1 true), .arrival 1 (record 1 true), .poll 2,
      .arrival 0 (record 4 false), .arrival 3 (record 2 true), .arrival 4 (record 3 true)]
    ∃ answers r, (Run.start p {}).trace events = .ok (answers, r) ∧
      answers.map Answer.outcome = [some .projected, some .duplicate, none, some .filtered,
        some .projected, some .limitReached] ∧
      answers.flatMap Answer.rows = [[("a", .integer 1)], [("a", .integer 2)]] := by
  intro p record events
  have hproper : ∀ a b, (record a b).Proper := fun a b =>
    .map (by simp [record]) (by simp [record])
  have hrecords : ∀ r ∈ [record 1 true, record 1 true, record 4 false, record 2 true,
      record 3 true], r.Proper := by
    simp only [List.forall_mem_cons, hproper, true_and, List.not_mem_nil, IsEmpty.forall_iff,
      implies_true]
  obtain ⟨r, htrace, hrows⟩ :=
    p.trace_pipeline rfl {} (Registry.proper_standard 0) events hrecords
  exact ⟨_, r, htrace, rfl, hrows.trans rfl⟩

end Plan

end StreamSql
