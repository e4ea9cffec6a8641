/-
  Evaluation keeps values proper.

  A map is a table of rows, and nothing but the operations on tables sees to it that no name
  stands in it twice.  Here nothing that an expression does to proper values makes one that is
  not, so that the rows of proper records are proper as well.

  * `Makes P x`: what a step gives has the property, if it gives something;
  * `Registry.Proper`: the functions give proper values for proper values
    (`Registry.proper_standard`: those of the catalog do);
  * `Scope.Proper`: all that an expression can see is proper;
  * `Expr.proper_eval`: then so is its value;
  * `Plan.proper_project`: and so is the row that a plan makes.
-/
import StreamSql.Proofs.Keys
import StreamSql.Proofs.Resolution

namespace StreamSql

open StreamSql.Expr

/-! ## Results of steps -/

/-- What the step gives has the property, if it gives something. -/
def Makes {α : Type} (P : α → Prop) (x : Except QueryError α) : Prop :=
  ∀ a, x = .ok a → P a

namespace Makes

variable {α β : Type} {P : α → Prop} {Q : β → Prop}

@[simp]
theorem ok_iff {a : α} : Makes P (.ok a) ↔ P a := by
  constructor
  · intro h
    exact h a rfl
  · rintro h _ ⟨⟩
    exact h

@[simp]
theorem pure_iff {a : α} : Makes P (pure a) ↔ P a := ok_iff

@[simp]
theorem error (e : QueryError) : Makes P (.error e) := fun _ h => nomatch h

@[simp]
theorem mismatch (expected : Expectation) (v : Value) : Makes P (v.mismatch expected) :=
  error _

theorem bind {x : Except QueryError α} {f : α → Except QueryError β} (hx : Makes P x)
    (hf : ∀ a, P a → Makes Q (f a)) : Makes Q (x >>= f) := by
  cases x with
  | error e => exact error e
  | ok a => exact hf a (hx a rfl)

/-- A step whose result does not matter for what comes next. -/
theorem bind_any {x : Except QueryError α} {f : α → Except QueryError β}
    (hf : ∀ a, Makes Q (f a)) : Makes Q (x >>= f) :=
  bind (P := fun _ => True) (fun _ _ => trivial) fun a _ => hf a

end Makes

/-! ## Operations on values -/

namespace Value

attribute [simp] Proper.integer Proper.float Proper.text Proper.boolean Proper.null

@[simp]
theorem proper_toValue (n : Number) : n.toValue.Proper := by
  cases n <;> simp [Number.toValue]

@[simp]
theorem proper_ofTruth (t : Option Bool) : (ofTruth t).Proper := by
  cases t <;> simp [ofTruth]

@[simp]
theorem proper_ofLiteral (l : Literal) : (ofLiteral l).Proper := by
  cases l <;> simp [ofLiteral]

@[simp]
theorem proper_arith (op : ArithOp) (a b : Value) : Makes Proper (arith op a b) := by
  unfold arith
  split
  · simp
  · split <;> simp

@[simp]
theorem proper_divide (a b : Value) : Makes Proper (a.divide b) := by
  unfold divide
  split
  · simp
  · refine Makes.bind_any fun m => Makes.bind_any fun n => ?_
    split <;> simp

@[simp]
theorem proper_modulo (a b : Value) : Makes Proper (a.modulo b) := by
  unfold modulo
  split
  · simp
  · exact Makes.bind_any fun m => Makes.bind_any fun n => Makes.bind_any fun k => by simp

@[simp]
theorem proper_likeValue (negated : Bool) (a b : Value) : Makes Proper (likeValue negated a b) := by
  unfold likeValue likeThrough
  split
  · split <;> simp
  · simp

@[simp]
theorem proper_ordered (test : Ordering → Bool) (a b : Value) :
    Makes Proper (ordered test a b) :=
  Makes.bind_any fun order => by simp

theorem proper_strict (op : BinaryOp) (a b : Value) : Makes Proper (strict op a b) := by
  cases op <;> simp [strict]

theorem proper_binary (op : BinaryOp) (a b : Value) : Makes Proper (a.binary op b) := by
  unfold binary
  split
  case h_6 =>
    split
    · simp
    · exact proper_strict _ a b
  all_goals simp

theorem proper_unary (op : UnaryOp) (v : Value) : Makes Proper (v.unary op) := by
  cases op with
  | isNull | isNotNull => simp [unary]
  | not => exact Makes.bind_any fun t => by simp
  | minus =>
    simp only [unary, negate]
    split
    · simp
    · exact Makes.bind_any fun n => by simp
  | plus =>
    simp only [unary]
    split
    · simp
    · exact Makes.bind_any fun n => by simp

theorem proper_between (negated : Bool) (v low high : Value) :
    Makes Proper (v.between negated low high) := by
  unfold between
  split
  · simp
  · refine Makes.bind_any fun below => ?_
    split
    · simp
    · exact Makes.bind_any fun above => by simp

/-! ## Maps and their fields -/

theorem proper_map_iff {fields : Table Value} : (Value.map fields).Proper ↔
    (fields.map Prod.fst).Nodup ∧ ∀ row ∈ fields, row.2.Proper := by
  constructor
  · intro h
    cases h with
    | map names hrows => exact ⟨names, hrows⟩
  · rintro ⟨names, hrows⟩
    exact .map names hrows

theorem Proper.get? {fields : Table Value} (h : (Value.map fields).Proper) {name : String}
    {v : Value} (hv : fields.get? name = some v) : v.Proper :=
  (proper_map_iff.1 h).2 _ (Table.mem_of_get? hv)

end Value

theorem Table.names_insert_nodup {α : Type} {t : Table α} (h : (t.map Prod.fst).Nodup)
    (name : String) (value : α) : ((t.insert name value).map Prod.fst).Nodup := by
  by_cases hhas : t.has name = true
  · rwa [keys_insert_of_has t value hhas]
  · have hnew : t.has name = false := by simpa using hhas
    rw [insert_of_not_has t value hnew, List.map_append, List.nodup_append]
    refine ⟨h, by simp, ?_⟩
    rintro a ha b hb rfl
    obtain ⟨row, hrow, rfl⟩ := List.mem_map.1 ha
    simp only [List.map_cons, List.map_nil, List.mem_singleton] at hb
    rw [Table.has, ← hb, get?_of_mem h hrow] at hnew
    cases hnew

theorem Table.mem_insert {α : Type} {t : Table α} {name : String} {value : α} {row : String × α}
    (h : row ∈ t.insert name value) : row ∈ t ∨ row.2 = value := by
  induction t with
  | nil =>
    rw [insert, List.mem_singleton] at h
    exact Or.inr (congrArg Prod.snd h)
  | cons first rest ih =>
    rw [insert] at h
    by_cases hn : first.1 = name
    · rw [if_pos hn] at h
      rcases List.mem_cons.1 h with rfl | h
      · exact Or.inr rfl
      · exact Or.inl (List.mem_cons_of_mem _ h)
    · rw [if_neg hn] at h
      rcases List.mem_cons.1 h with rfl | h
      · exact Or.inl List.mem_cons_self
      · exact (ih h).imp_left (List.mem_cons_of_mem _)

/-- A map with one field more, or another value in a field. -/
theorem Value.Proper.insert {row : Row} (h : (Value.map row).Proper) (name : String) {v : Value}
    (hv : v.Proper) : (Value.map (row.insert name v)).Proper := by
  obtain ⟨names, hrow⟩ := proper_map_iff.1 h
  refine .map (Table.names_insert_nodup names name v) fun field hfield => ?_
  rcases Table.mem_insert hfield with hold | hnew
  · exact hrow field hold
  · rw [hnew]
    exact hv

/-! ## Records and scopes -/

/-- No map of the record names a field twice, and neither does the record itself. -/
def Record.Proper (r : Record) : Prop :=
  (Value.map r.fields).Proper

theorem Record.proper_walk {v : Value} (h : v.Proper) :
    ∀ segments : List String, (walk v segments).Proper
  | [] => by rwa [walk]
  | segment :: rest => by
    cases v with
    | map fields =>
      simp only [walk]
      cases hget : Table.get? fields segment with
      | none => exact .null
      | some next => exact proper_walk (h.get? hget) rest
    | _ => simp [walk]

/-- Whatever stands under a path of a proper record is proper. -/
theorem Record.Proper.path {r : Record} (h : r.Proper) (name : String) : (r.path name).Proper := by
  unfold Record.path
  cases hget : r.fields.get? name with
  | none => exact proper_walk h _
  | some v => exact Value.Proper.get? h hget

/-- The functions of the registry give proper values for proper values. -/
def Registry.Proper (r : Registry) : Prop :=
  r.Each fun run => ∀ args : List Value, (∀ v ∈ args, v.Proper) → Makes Value.Proper (run args)

theorem Registry.Proper.call {r : Registry} (h : r.Proper) (name : String) {args : List Value}
    (hargs : ∀ v ∈ args, v.Proper) : Makes Value.Proper (r.call name args) := by
  unfold Registry.call
  cases hf : r.scalar? name with
  | none =>
    simp only
    split <;> simp
  | some f =>
    simp only
    split
    · exact h name f hf args hargs
    · simp

/-! ## The functions of the catalog -/

namespace Scalar

@[simp]
theorem proper_wrongCount (name : String) (args : List Value) :
    Makes Value.Proper (wrongCount name args) := Makes.error _

theorem proper_abs (args : List Value) : Makes Value.Proper (abs args) := by
  unfold abs
  split
  · simp
  · exact Makes.bind_any fun n => by simp
  · simp

theorem proper_roundTo (v : Value) (places : Int64) : Makes Value.Proper (roundTo v places) := by
  unfold roundTo
  split
  · simp
  · refine Makes.bind_any fun n => ?_
    cases n <;> simp

theorem proper_round (args : List Value) : Makes Value.Proper (round args) := by
  unfold round
  split
  · exact proper_roundTo _ 0
  · simp
  · exact Makes.bind_any fun n => proper_roundTo _ n
  · simp

theorem proper_integral (name : String) (pick : FloatParts → Int) (args : List Value) :
    Makes Value.Proper (integral name pick args) := by
  unfold integral
  split
  · simp
  · refine Makes.bind_any fun n => ?_
    cases n <;> simp
  · simp

theorem proper_sqrt (args : List Value) : Makes Value.Proper (sqrt args) := by
  unfold sqrt
  split
  · simp
  · refine Makes.bind_any fun n => ?_
    simp only
    split <;> simp
  · simp

theorem proper_power (args : List Value) : Makes Value.Proper (power args) := by
  unfold power
  split
  · simp
  · simp
  · exact Makes.bind_any fun m => Makes.bind_any fun n => by simp
  · simp

theorem proper_mod (args : List Value) : Makes Value.Proper (mod args) := by
  unfold mod
  split <;> simp

theorem proper_ofText (name : String) (f : String → String) (args : List Value) :
    Makes Value.Proper (ofText name f args) := by
  unfold ofText
  split
  · simp
  · exact Makes.bind_any fun s => by simp
  · simp

theorem proper_length (args : List Value) : Makes Value.Proper (length args) := by
  unfold length
  split
  · simp
  · simp
  · exact Makes.bind_any fun s => by simp
  · simp

theorem proper_substring (args : List Value) : Makes Value.Proper (substring args) := by
  unfold substring
  split
  · simp
  · split
    · exact Makes.bind_any fun s => Makes.bind_any fun start => by simp
    · exact Makes.bind_any fun s => Makes.bind_any fun start => Makes.bind_any fun count => by simp
    · simp

theorem proper_replace (args : List Value) : Makes Value.Proper (replace args) := by
  unfold replace
  split
  · split
    · simp
    · exact Makes.bind_any fun s => Makes.bind_any fun search =>
        Makes.bind_any fun replacement => by simp
  · simp

theorem proper_toText (args : List Value) : Makes Value.Proper (toText args) := by
  unfold toText
  split <;> simp

theorem proper_toNumber (args : List Value) : Makes Value.Proper (toNumber args) := by
  unfold toNumber
  split
  · simp
  · simp
  · exact Makes.bind_any fun n => by simp
  · simp

theorem proper_now (time : Int64) (args : List Value) : Makes Value.Proper (now time args) := by
  unfold now
  split <;> simp

variable {args : List Value}

theorem proper_coalesce (h : ∀ v ∈ args, v.Proper) : Makes Value.Proper (coalesce args) := by
  rw [coalesce, Makes.ok_iff]
  cases hfind : args.find? (!·.isNull) with
  | none => exact .null
  | some v => exact h v (List.mem_of_find?_eq_some hfind)

theorem proper_nullIf (h : ∀ v ∈ args, v.Proper) : Makes Value.Proper (nullIf args) := by
  unfold nullIf
  split
  · simp
  · exact Makes.ok_iff.2 (h _ (by simp))
  · rw [Makes.ok_iff]
    split
    · exact .null
    · exact h _ (by simp)
  · simp

/-- GREATEST and LEAST give one of their arguments, or NULL. -/
theorem proper_bestOf (keep : Ordering) {best : Option Value} (hbest : ∀ v ∈ best, v.Proper)
    (h : ∀ v ∈ args, v.Proper) : Makes Value.Proper (bestOf keep best args) := by
  induction args generalizing best with
  | nil =>
    cases best with
    | none => simp [bestOf]
    | some v => simpa [bestOf] using hbest v rfl
  | cons v rest ih =>
    obtain ⟨hv, hrest⟩ := List.forall_mem_cons.1 h
    have hnext : Makes Value.Proper (bestOf keep (some v) rest) := ih (by simpa using hv) hrest
    unfold bestOf
    split
    · exact ih hbest hrest
    · cases best with
      | none => exact hnext
      | some w =>
        refine Makes.bind_any fun order => ?_
        split
        · exact hnext
        · exact ih hbest hrest

end Scalar

/-- **The functions of the catalog** give proper values for proper values: what they make is
    without parts, or one of their arguments. -/
theorem Registry.proper_standard (time : Int64) : (Registry.standard time).Proper := by
  have hchoice : ∀ run ∈ [Scalar.coalesce, Scalar.nullIf, Scalar.greatest, Scalar.least],
      ∀ args : List Value, (∀ v ∈ args, v.Proper) → Makes Value.Proper (run args) := by
    simp only [List.forall_mem_cons, List.not_mem_nil, IsEmpty.forall_iff, implies_true, and_true]
    exact ⟨fun _ => Scalar.proper_coalesce, fun _ => Scalar.proper_nullIf,
      fun _ => Scalar.proper_bestOf .gt (fun _ h => nomatch h),
      fun _ => Scalar.proper_bestOf .lt (fun _ h => nomatch h)⟩
  refine each_standard ?_
  simpa [Catalog.scalars, Catalog.scalar, Scalar.proper_abs, Scalar.proper_round,
    Scalar.proper_integral, Scalar.proper_sqrt, Scalar.proper_power, Scalar.proper_mod,
    Scalar.proper_ofText, Scalar.proper_length, Scalar.concat, Scalar.proper_substring,
    Scalar.proper_replace, Scalar.proper_toText, Scalar.proper_toNumber, Scalar.proper_now]
    using hchoice

namespace Scope

/-- All that an expression can see is proper. -/
structure Proper (s : Scope) : Prop where
  record : s.record.Proper
  registry : s.registry.Proper
  aggregates : ∀ v ∈ s.aggregates, v.Proper
  aliases : ∀ row ∈ s.aliases, (Value.map row).Proper

theorem Proper.column {s : Scope} (h : s.Proper) (name : String) : (s.column name).Proper := by
  unfold Scope.column
  cases hget : s.aliases.bind (Table.get? · name) with
  | none => exact h.record.path name
  | some v =>
    obtain ⟨row, hrow, hv⟩ := Option.bind_eq_some_iff.1 hget
    exact Value.Proper.get? (h.aliases row hrow) hv

end Scope

/-! ## Expressions -/

namespace Expr

variable {s : Scope}

theorem proper_window (bound : WindowBound) (window : Option Bounds) :
    (bound.value window).Proper := by
  cases window <;> simp [WindowBound.value]

mutual

/-- **The value of an expression is proper** where all is that it can see. -/
theorem proper_eval (hs : s.Proper) : ∀ e : Expr, Makes Value.Proper (e.eval s)
  | .column name => by
    rw [eval, Makes.ok_iff]
    exact hs.column name
  | .literal value => by simp [eval]
  | .slot index => by
    rw [eval]
    cases hget : s.aggregates[index]? with
    | none => simp
    | some v => simpa using hs.aggregates v (List.mem_of_getElem? hget)
  | .list _ => by simp [eval]
  | .unary op operand => by
    rw [eval]
    exact Makes.bind_any fun v => Value.proper_unary op v
  | .between negated operand low high => by
    rw [eval]
    exact Makes.bind_any fun v => Makes.bind_any fun a => Makes.bind_any fun b =>
      Value.proper_between negated v a b
  | .call name args => by
    rw [eval]
    cases WindowBound.ofName? name with
    | some bound =>
      simp only
      split
      · simp [proper_window]
      · simp
    | none => exact Makes.bind (proper_evalList hs args) fun vs hvs => hs.registry.call name hvs
  | .cases operand branches otherwise => by
    rw [eval]
    refine Makes.bind_any fun subject => ?_
    refine Makes.bind (proper_evalBranches hs subject branches) fun found hfound => ?_
    cases found with
    | some v => simpa using hfound v rfl
    | none =>
      refine Makes.bind (proper_evalOption hs otherwise) fun v hv => ?_
      cases v with
      | none => simp
      | some v => simpa using hv v rfl
  | .binary op left right => by
    cases op <;> simp only [eval]
    case and | or =>
      refine Makes.bind_any fun a => Makes.bind_any fun t => ?_
      split
      · simp
      · exact Makes.bind_any fun b => Makes.bind_any fun u => by simp
    case isIn | notIn => exact proper_evalMembership _ _ right
    all_goals exact Makes.bind_any fun a => Makes.bind_any fun b => Value.proper_binary _ a b

theorem proper_evalMembership (negated : Bool) (left : Except QueryError Value) :
    ∀ e : Expr, Makes Value.Proper (evalMembership s negated left e)
  | .list items => by
    rw [evalMembership]
    refine Makes.bind_any fun v => ?_
    split
    · simp
    · exact proper_evalItems negated v false items
  | .column _ | .literal _ | .slot _ | .unary _ _ | .between _ _ _ _ | .call _ _ | .cases _ _ _
  | .binary _ _ _ => by simp [evalMembership]

theorem proper_evalItems (negated : Bool) (v : Value) (unknown : Bool) :
    ∀ items : List Expr, Makes Value.Proper (evalItems s negated v unknown items)
  | [] => by cases unknown <;> simp [evalItems]
  | e :: rest => by
    rw [evalItems]
    refine Makes.bind_any fun candidate => ?_
    split
    · exact proper_evalItems negated v true rest
    · split
      · simp
      · exact proper_evalItems negated v unknown rest

theorem proper_evalList (hs : s.Proper) :
    ∀ items : List Expr, Makes (∀ v ∈ ·, v.Proper) (evalList s items)
  | [] => by simp [evalList]
  | e :: rest => by
    rw [evalList]
    refine Makes.bind (proper_eval hs e) fun v hv => ?_
    refine Makes.bind (proper_evalList hs rest) fun vs hvs => ?_
    simpa using ⟨hv, hvs⟩

theorem proper_evalOption (hs : s.Proper) :
    ∀ e : Option Expr, Makes (∀ v ∈ ·, v.Proper) (evalOption s e)
  | none => by simp [evalOption]
  | some e => by
    rw [evalOption]
    exact Makes.bind (proper_eval hs e) fun v hv => by simpa using hv

theorem proper_evalBranches (hs : s.Proper) (subject : Option Value) :
    ∀ branches : List (Expr × Expr), Makes (∀ v ∈ ·, v.Proper) (evalBranches s subject branches)
  | [] => by simp [evalBranches]
  | (condition, result) :: rest => by
    have hresult : Makes (∀ v ∈ ·, v.Proper) (do return some (← result.eval s)) :=
      Makes.bind (proper_eval hs result) fun v hv => by simpa using hv
    have hrest := proper_evalBranches hs subject rest
    rw [evalBranches]
    refine Makes.bind_any fun v => ?_
    cases subject <;> simp only <;> split <;> assumption

end

end Expr

/-! ## Rows -/

namespace Plan

theorem proper_columnValue {s : Scope} (hs : s.Proper) (substitute : Substitute) (e : Compiled) :
    (columnValue substitute s e).Proper := by
  unfold columnValue
  cases h : e.eval s with
  | ok v => exact Expr.proper_eval hs e.tree v h
  | error _ => cases substitute <;> simp [Substitute.value]

theorem proper_addOutput {s : Scope} (hs : s.Proper) (substitute : Substitute) {row : Row}
    (h : (Value.map row).Proper) (output : Output) :
    (Value.map (addOutput substitute s row output)).Proper := by
  cases output with
  | column name e => exact h.insert name (proper_columnValue hs substitute e)
  | wildcard =>
    have hfields := (Value.proper_map_iff.1 hs.record).2
    simp only [addOutput]
    generalize s.record.fields = fields at hfields
    induction fields generalizing row with
    | nil => exact h
    | cons field rest ih =>
      obtain ⟨hfield, hrest⟩ := List.forall_mem_cons.1 hfields
      exact ih (h.insert field.1 hfield) hrest

/-- **The row of a proper scope is proper**: it has each column once, and proper values. -/
theorem proper_project (p : Plan) {s : Scope} (hs : s.Proper) (substitute : Substitute) :
    (Value.map (p.project substitute s)).Proper := by
  have hempty : (Value.map []).Proper := .map List.nodup_nil fun _ h => nomatch h
  unfold project
  generalize p.outputs = outputs
  generalize ([] : Row) = row at hempty
  induction outputs generalizing row with
  | nil => exact hempty
  | cons output rest ih => exact ih _ (proper_addOutput hs substitute hempty output)

end Plan

end StreamSql
