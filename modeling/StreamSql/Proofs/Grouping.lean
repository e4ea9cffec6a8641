/-
  Grouping items by a key, in one piece and item by item.

  * `Groups.collect key items`: the items of each group in order, the groups in the order of
    their first items;
  * `collect_concat`: one item more is appended to its group, or makes a group of its own;
  * `Plan.groupOf`, `Plan.groupsOf`: the group of a list of records, and the groups into which
    a list of records falls; `groupsOf_concat`: folding in one record more.

  The lemmas on `insert` and `erase` need nothing of `GroupKey.same`: all three operations act
  on the first row of the group.
-/
import StreamSql.Plan.Projection
import StreamSql.Window.Groups

namespace StreamSql

namespace Groups

variable {α β : Type}

/-! ## Rows of a table -/

theorem get?_map (f : α → β) (t : Groups α) (key : GroupKey) :
    get? (t.map fun row => (row.1, f row.2)) key = (t.get? key).map f := by
  induction t with
  | nil => rfl
  | cons row rest ih =>
    by_cases hr : row.1.same key = true
    · simp [get?, hr]
    · simp only [List.map_cons, get?, hr, Bool.false_eq_true, if_false, ih]

theorem insert_map (f : α → β) (t : Groups α) (key : GroupKey) (value : α) :
    insert (t.map fun row => (row.1, f row.2)) key (f value) =
      (t.insert key value).map fun row => (row.1, f row.2) := by
  induction t with
  | nil => rfl
  | cons row rest ih =>
    by_cases hr : row.1.same key = true
    · simp [insert, hr]
    · simp only [List.map_cons, insert, hr, Bool.false_eq_true, if_false, ih]

theorem mem_of_get? {t : Groups α} {key : GroupKey} {value : α} (h : t.get? key = some value) :
    ∃ k, (k, value) ∈ t := by
  induction t with
  | nil => simp at h
  | cons row rest ih =>
    by_cases hr : row.1.same key = true
    · simp only [get?, hr, if_true, Option.some.injEq] at h
      exact ⟨row.1, by simp [← h]⟩
    · simp only [get?, hr, Bool.false_eq_true, if_false] at h
      obtain ⟨k, hk⟩ := ih h
      exact ⟨k, List.mem_cons_of_mem _ hk⟩

/-- A group that is present is one row of the table, and `erase` leaves the others. -/
theorem perm_erase {t : Groups α} {key : GroupKey} {value : α} (h : t.get? key = some value) :
    (t.map Prod.snd).Perm (value :: (t.erase key).map Prod.snd) := by
  induction t with
  | nil => simp at h
  | cons row rest ih =>
    by_cases hr : row.1.same key = true
    · simp only [get?, hr, if_true, Option.some.injEq] at h
      simp [erase, hr, h]
    · simp only [get?, hr, Bool.false_eq_true, if_false] at h
      simp only [erase, hr, Bool.false_eq_true, if_false, List.map_cons]
      exact ((ih h).cons _).trans (List.Perm.swap ..)

/-- Entering a group that is present puts its new value in the place of the old one. -/
theorem perm_insert {t : Groups α} {key : GroupKey} {value : α} (h : t.get? key = some value)
    (new : α) : ((t.insert key new).map Prod.snd).Perm (new :: (t.erase key).map Prod.snd) := by
  induction t with
  | nil => simp at h
  | cons row rest ih =>
    by_cases hr : row.1.same key = true
    · simp [insert, erase, hr]
    · simp only [get?, hr, Bool.false_eq_true, if_false] at h
      simp only [insert, erase, hr, Bool.false_eq_true, if_false, List.map_cons]
      exact ((ih h).cons _).trans (List.Perm.swap ..)

theorem erase_of_get?_eq_none {t : Groups α} {key : GroupKey} (h : t.get? key = none) :
    t.erase key = t := by
  induction t with
  | nil => rfl
  | cons row rest ih =>
    by_cases hr : row.1.same key = true
    · simp [get?, hr] at h
    · simp only [get?, hr, Bool.false_eq_true, if_false] at h
      simp [erase, hr, ih h]

/-! ## Collecting -/

/-- The items that are not of the group of `a`. -/
def others (key : α → GroupKey) (a : α) (items : List α) : List α :=
  items.filter fun b => !(key a).same (key b)

/-- The items by their keys: the first item gives its key to a group, all later items with
    this key follow it, and the others are grouped in the same way. -/
def collect (key : α → GroupKey) : List α → Groups (List α)
  | [] => []
  | a :: rest =>
    (key a, a :: rest.filter fun b => (key a).same (key b)) :: collect key (others key a rest)
termination_by items => items.length
decreasing_by exact Nat.lt_succ_of_le (List.length_filter_le ..)

variable {key : α → GroupKey}

@[simp]
theorem others_nil (a : α) : others key a [] = [] := rfl

theorem others_concat (a b : α) (items : List α) :
    others key a (items ++ [b]) =
      if (key a).same (key b) then others key a items else others key a items ++ [b] := by
  by_cases h : (key a).same (key b) = true <;> simp [others, h]

theorem collect_nil : collect key [] = [] := by simp [collect]

theorem collect_eq_nil {items : List α} : collect key items = [] ↔ items = [] := by
  cases items <;> simp [collect]

/-- **One item more** goes to the end of its group. -/
theorem collect_concat (items : List α) (a : α) :
    collect key (items ++ [a]) =
      (collect key items).insert (key a) (((collect key items).get? (key a)).getD [] ++ [a]) := by
  induction items using collect.induct key with
  | case1 => simp [collect, insert]
  | case2 b rest ih =>
    rw [List.cons_append, collect, collect]
    by_cases hb : (key b).same (key a) = true
    · simp [insert, get?, hb, others_concat]
    · simp [insert, get?, hb, others_concat, ih]

/-- No group is empty. -/
theorem ne_nil_of_mem_collect {items : List α} {row : GroupKey × List α}
    (h : row ∈ collect key items) : row.2 ≠ [] := by
  induction items using collect.induct key with
  | case1 => simp [collect] at h
  | case2 b rest ih =>
    rw [collect] at h
    rcases List.mem_cons.1 h with rfl | h
    · simp
    · exact ih h

/-- **Every item is in one group**, as often as in the list. -/
theorem perm_collect (items : List α) : ((collect key items).flatMap Prod.snd).Perm items := by
  induction items using collect.induct key with
  | case1 => simp [collect]
  | case2 b rest ih =>
    rw [collect, List.flatMap_cons, List.cons_append]
    exact ((ih.append_left _).trans (List.filter_append_perm ..)).cons _

end Groups

/-! ## Groups of records -/

namespace Plan

variable (p : Plan) (accs : List Accumulator)

/-- The group of these records: the first one is its sample, and each adds what it contributes
    to the accumulators, which are `accs` at the beginning. -/
def groupOf (records : List Record) : Group :=
  records.foldl (fun g record => g.add (p.contributions record)) ⟨records.headD {}, accs⟩

theorem sample_groupOf (records : List Record) :
    (p.groupOf accs records).sample = records.headD {} := by
  have hadd : ∀ (rs : List Record) (g : Group),
      (rs.foldl (fun g record => g.add (p.contributions record)) g).sample = g.sample := fun rs => by
    induction rs with
    | nil => exact fun _ => rfl
    | cons record rest ih => exact fun g => ih (g.add (p.contributions record))
  exact hadd records _

/-- The groups into which the records fall, in the order of their first records. -/
def groupsOf (records : List Record) : Groups Group :=
  (Groups.collect p.groupKey records).map fun row => (row.1, p.groupOf accs row.2)

theorem groupsOf_nil : p.groupsOf accs [] = [] := by
  simp [groupsOf, Groups.collect_nil]

theorem groupsOf_eq_nil {records : List Record} : p.groupsOf accs records = [] ↔ records = [] := by
  simp [groupsOf, Groups.collect_eq_nil]

theorem groupOf_concat {records : List Record} (h : records ≠ []) (record : Record) :
    p.groupOf accs (records ++ [record]) =
      (p.groupOf accs records).add (p.contributions record) := by
  obtain ⟨first, rest, rfl⟩ := List.exists_cons_of_ne_nil h
  simp [groupOf]

/-- **One record more** is added to its group, or to a new one. -/
theorem groupsOf_concat (records : List Record) (record : Record) :
    p.groupsOf accs (records ++ [record]) =
      (p.groupsOf accs records).insert (p.groupKey record)
        ((((p.groupsOf accs records).get? (p.groupKey record)).getD ⟨record, accs⟩).add
          (p.contributions record)) := by
  unfold groupsOf
  rw [Groups.collect_concat, Groups.get?_map, ← Groups.insert_map (p.groupOf accs)]
  congr 1
  cases h : (Groups.collect p.groupKey records).get? (p.groupKey record) with
  | none => rfl
  | some old =>
    obtain ⟨k, hk⟩ := Groups.mem_of_get? h
    exact p.groupOf_concat accs (Groups.ne_nil_of_mem_collect hk) record

/-! ## Accumulators of a group -/

theorem getElem?_mapM {α β : Type} {f : α → Except QueryError β} :
    ∀ {xs : List α} {ys : List β}, xs.mapM f = .ok ys → ∀ {i : Nat} {x : α}, xs[i]? = some x →
      ∃ y, f x = .ok y ∧ ys[i]? = some y
  | [], _, _, _, _, hi => by simp at hi
  | x :: xs, _, h, i, _, hi => by
    rw [List.mapM_cons] at h
    obtain ⟨y, hy, h⟩ := bind_eq_ok.1 h
    obtain ⟨ys, hys, h⟩ := bind_eq_ok.1 h
    obtain rfl := Except.ok.inj h
    cases i with
    | zero => obtain rfl := Option.some.inj hi; exact ⟨y, hy, rfl⟩
    | succ i => exact getElem?_mapM hys hi

theorem length_mapM {α β : Type} {f : α → Except QueryError β} :
    ∀ {xs : List α} {ys : List β}, xs.mapM f = .ok ys → xs.length = ys.length
  | [], _, h => by obtain rfl := Except.ok.inj h; rfl
  | x :: xs, _, h => by
    rw [List.mapM_cons] at h
    obtain ⟨y, -, h⟩ := bind_eq_ok.1 h
    obtain ⟨ys, hys, h⟩ := bind_eq_ok.1 h
    obtain rfl := Except.ok.inj h
    exact congrArg (· + 1) (length_mapM hys)

theorem getElem?_foldl_add {contributions : Record → List Value} {i : Nat}
    {contribution : Record → Value} (hc : ∀ r, (contributions r)[i]? = some (contribution r))
    (records : List Record) {g : Group} {acc : Accumulator} (hg : g.accumulators[i]? = some acc) :
    (records.foldl (fun g record => g.add (contributions record)) g).accumulators[i]? =
      some (records.foldl (fun acc record => acc.offer (contribution record)) acc) := by
  induction records generalizing g acc with
  | nil => exact hg
  | cons record rest ih =>
    refine ih ?_
    show (List.zipWith Accumulator.offer g.accumulators (contributions record))[i]? = _
    rw [List.getElem?_zipWith, hg, hc]

/-- **An accumulator of a group** has been offered what each record contributes to its slot. -/
theorem accumulators_groupOf {p : Plan} {accs : List Accumulator}
    (hp : p.newAccumulators = .ok accs) (records : List Record) {i : Nat} {s : Slot}
    (hs : p.slots[i]? = some s) :
    ∃ acc, s.create = .ok acc ∧ (p.groupOf accs records).accumulators[i]? =
      some (records.foldl (fun acc record => acc.offer (s.contribution p.registry record)) acc) := by
  obtain ⟨acc, hacc, hi⟩ := getElem?_mapM hp hs
  refine ⟨acc, hacc, getElem?_foldl_add (fun record => ?_) records hi⟩
  rw [contributions, List.getElem?_map, hs]
  rfl

end Plan

end StreamSql
