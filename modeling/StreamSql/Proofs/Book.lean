/-
  Windows that belong to one group each, with their arrivals.

  A `Book` has a row for every group with an open window: the state of the window and its
  arrivals.  `Ledger.Holds` says that a ledger has these arrivals; `fire_holds` and
  `enter_holds` are what happens to the book when windows fire and when a record comes.

  * `Plan.owns`, `Plan.own`: the records of a group, up to the equality of keys;
  * `Plan.groupBatch`: the batch of a window with one group; `batchOf_ofOneGroup`: it is the
    batch of records of one group; `Firing.OfGroup`: a window of one group fired.
-/
import StreamSql.Proofs.Keys
import StreamSql.Proofs.Sound

namespace StreamSql

/-! ## Records of a group -/

namespace Plan

variable (p : Plan)

/-- The record is of the group. -/
def owns (key : GroupKey) (record : Record) : Bool :=
  Value.keyEqItems key.values (p.groupKey record).values

/-- The arrivals of the group. -/
def own (key : GroupKey) (as : List Arrival) : List Arrival :=
  as.filter fun a => p.owns key a.record

/-- The arrivals are of one group. -/
def OneGroup (as : List Arrival) : Prop :=
  ∀ a ∈ as, ∀ b ∈ as, (p.groupKey a.record).same (p.groupKey b.record) = true

/-- The batch of a window in which there is one group, that of these records. -/
def groupBatch (substitute : Substitute) (accs : List Accumulator) (bounds : Bounds)
    (records : List Record) : Batch :=
  ⟨p.finish (p.groupRow? substitute bounds (p.groupOf accs records)).toList, some bounds⟩

variable {p}

theorem owns_eq (key : GroupKey) (record : Record) :
    p.owns key record = key.same (p.groupKey record) :=
  Bool.eq_iff_iff.2 GroupKey.same_iff.symm

theorem own_append (key : GroupKey) (as bs : List Arrival) :
    p.own key (as ++ bs) = p.own key as ++ p.own key bs := List.filter_append ..

theorem own_singleton (key : GroupKey) (a : Arrival) :
    p.own key [a] = if p.owns key a.record then [a] else [] := by
  rw [own, List.filter_cons, List.filter_nil]

theorem groupsOf_ofOneGroup (accs : List Accumulator) {as : List Arrival} (hne : as ≠ [])
    (h : p.OneGroup as) : ∃ key, p.groupsOf accs (as.map Arrival.record) =
      [(key, p.groupOf accs (as.map Arrival.record))] := by
  obtain ⟨first, rest, rfl⟩ := List.exists_cons_of_ne_nil hne
  have hsame : ∀ record ∈ rest.map Arrival.record,
      (p.groupKey first.record).same (p.groupKey record) = true := fun record hr => by
    obtain ⟨a, ha, rfl⟩ := List.mem_map.1 hr
    exact h first List.mem_cons_self a (List.mem_cons_of_mem _ ha)
  refine ⟨p.groupKey first.record, ?_⟩
  rw [groupsOf, List.map_cons, Groups.collect, Groups.others, List.filter_eq_self.2 hsame,
    List.filter_eq_nil_iff.2 fun record hr => by simp [hsame record hr], Groups.collect_nil]
  rfl

/-- **Records of one group** make one group. -/
theorem batchOf_ofOneGroup (substitute : Substitute) (accs : List Accumulator) (bounds : Bounds)
    {as : List Arrival} (hne : as ≠ []) (h : p.OneGroup as) :
    p.batchOf substitute accs bounds (as.map Arrival.record) =
      p.groupBatch substitute accs bounds (as.map Arrival.record) := by
  obtain ⟨key, hgroups⟩ := groupsOf_ofOneGroup accs hne h
  rw [batchOf, hgroups, groupBatch, List.filterMap_cons, List.filterMap_nil]
  cases p.groupRow? substitute bounds (p.groupOf accs (as.map Arrival.record)) <;> rfl

/-- Among the arrivals is one of the group. -/
def touches (p : Plan) (key : GroupKey) (as : List Arrival) : Bool :=
  as.any fun a => p.owns key a.record

theorem ne_nil_of_touches {key : GroupKey} {as : List Arrival} (h : p.touches key as = true) :
    as ≠ [] := fun he => by
  rw [he] at h
  cases h

section

variable {key other : GroupKey} {as : List Arrival}

theorem own_eq (key : GroupKey) (as : List Arrival) :
    p.own key as = as.filter fun a => key.same (p.groupKey a.record) :=
  List.filter_congr fun a _ => owns_eq key a.record

/-- Keys of one group have the same arrivals. -/
theorem own_congr (hs : key.same other = true) (as : List Arrival) :
    p.own key as = p.own other as := by
  rw [own_eq, own_eq]
  exact List.filter_congr fun a _ => GroupKey.same_congr hs (p.groupKey a.record)

/-- Arrivals of one group are of the group of every key that is the same. -/
theorem touches_eq (hne : as ≠ []) (h : ∀ a ∈ as, p.owns other a.record = true) :
    p.touches key as = key.same other := by
  have hsame : ∀ a ∈ as, p.owns key a.record = key.same other := fun a ha => by
    have ho : other.same (p.groupKey a.record) = true := (owns_eq other a.record).symm.trans (h a ha)
    rw [owns_eq, GroupKey.same_comm key, GroupKey.same_comm key]
    exact (GroupKey.same_congr ho key).symm
  obtain ⟨first, rest, rfl⟩ := List.exists_cons_of_ne_nil hne
  cases hs : key.same other with
  | true => exact List.any_eq_true.2 ⟨first, List.mem_cons_self, (hsame _ List.mem_cons_self).trans hs⟩
  | false => exact List.any_eq_false.2 fun a ha => by rw [hsame a ha, hs]; exact Bool.false_ne_true

theorem oneGroup_of_owned (h : ∀ a ∈ as, p.owns other a.record = true) : p.OneGroup as :=
  fun a ha b hb => GroupKey.same_trans
    (GroupKey.same_symm ((owns_eq other a.record).symm.trans (h a ha)))
    ((owns_eq other b.record).symm.trans (h b hb))

end

/-- An arrival is one more of its group, and of no other. -/
theorem own_concat (key : GroupKey) (as : List Arrival) (a : Arrival) :
    p.own key (as ++ [a]) = if (p.groupKey a.record).same key
      then p.own (p.groupKey a.record) as ++ [a] else p.own key as := by
  rw [own_append, own_singleton, owns_eq, GroupKey.same_comm key]
  cases hs : (p.groupKey a.record).same key with
  | true => rw [if_pos rfl, if_pos rfl, own_congr hs]
  | false => rw [if_neg Bool.false_ne_true, if_neg Bool.false_ne_true, List.append_nil]

end Plan

/-! ## Windows of one group -/

/-- The window that fired is one of a group, and has the bounds that its arrivals give. -/
structure Firing.OfGroup (p : Plan) (bounds : List Arrival → Bounds) (f : Firing) : Prop where
  touched : ∃ key : GroupKey, p.touches key f.arrivals = true
  oneGroup : p.OneGroup f.arrivals
  bounds_eq : f.window.bounds = bounds f.arrivals

theorem Firing.ofGroup_of_owned {p : Plan} {bounds : List Arrival → Bounds} {f : Firing}
    {key : GroupKey} (hne : f.arrivals ≠ []) (h : ∀ a ∈ f.arrivals, p.owns key a.record = true)
    (hb : f.window.bounds = bounds f.arrivals) : f.OfGroup p bounds :=
  ⟨⟨key, (Plan.touches_eq hne h).trans (GroupKey.same_refl key)⟩, Plan.oneGroup_of_owned h, hb⟩

/-- **Windows of one group each** make the batches of their groups. -/
theorem Job.batches_ofGroup {j : Job} {bounds : List Arrival → Bounds} {firings : List Firing}
    (h : ∀ f ∈ firings, f.OfGroup j.plan bounds) :
    j.batches firings = (firings.map Firing.arrivals).map fun as =>
      j.plan.groupBatch j.substitute j.fresh (bounds as) (as.map Arrival.record) := by
  rw [batches, List.map_map]
  refine List.map_congr_left fun f hf => ?_
  obtain ⟨⟨key, htouches⟩, hone, hbounds⟩ := h f hf
  rw [Plan.batchOf_ofOneGroup _ _ _ (Plan.ne_nil_of_touches htouches) hone, hbounds]
  rfl

/-! ## Books -/

/-- The open window of each group, by its state, with its arrivals. -/
abbrev Book (α : Type) := Groups (α × List Arrival)

namespace Book

variable {α : Type}

/-- The arrivals in the open window of a group. -/
def content (b : Book α) (key : GroupKey) : List Arrival :=
  ((b.get? key).map Prod.snd).getD []

theorem content_of_some {b : Book α} {key : GroupKey} {v : α × List Arrival}
    (h : b.get? key = some v) : b.content key = v.2 := by
  rw [content, h]
  rfl

theorem content_of_none {b : Book α} {key : GroupKey} (h : b.get? key = none) :
    b.content key = [] := by
  rw [content, h]
  rfl

/-- The open window of each group without its arrivals. -/
def states (b : Book α) : Groups α :=
  b.map fun row => (row.1, row.2.1)

theorem get?_states (b : Book α) (key : GroupKey) :
    b.states.get? key = (b.get? key).map Prod.fst :=
  Groups.get?_map Prod.fst b key

theorem insert_states (b : Book α) (key : GroupKey) (v : α × List Arrival) :
    b.states.insert key v.1 = states (b.insert key v) :=
  Groups.insert_map Prod.fst b key v

theorem erase_states (b : Book α) (key : GroupKey) : b.states.erase key = states (b.erase key) :=
  Groups.erase_map Prod.fst b key

end Book

namespace Ledger

/-- The arrivals of a history that goes on. -/
theorem arrivals_append (j : Job) (l : Ledger) (events later : List Event) :
    arrivals j.plan l.dial (events ++ later) =
      arrivals j.plan l.dial events ++ arrivals j.plan (l.play j events).2.dial later := by
  induction events generalizing l with
  | nil => rfl
  | cons e rest ih =>
    rw [List.cons_append, arrivals_cons, arrivals_cons _ _ e rest, ← step_dial, ih, play,
      List.append_assoc]

variable {α : Type} {id : α → Nat} {l : Ledger} {b : Book α}

/-- The windows of the book have the arrivals that it says, at least one each, and no other
    window has any. -/
structure Holds (l : Ledger) (id : α → Nat) (b : Book α) : Prop where
  nodup : ((b.map Prod.snd).map fun v => id v.1).Nodup
  content : ∀ v ∈ b.map Prod.snd, l.content (id v.1) = v.2
  filled : ∀ v ∈ b.map Prod.snd, v.2 ≠ []
  outside : ∀ i, i ∉ (b.map Prod.snd).map (fun v => id v.1) → l.content i = []

/-- Nothing but the arrivals counts. -/
theorem Holds.congr {l' : Ledger} (h : l.Holds id b) (hc : l'.content = l.content) :
    l'.Holds id b :=
  ⟨h.nodup, hc ▸ h.content, h.filled, hc ▸ h.outside⟩

/-- **Windows that fire** hand over the arrivals that the book says, and the book has the
    other rows. -/
theorem fire_holds (h : l.Holds id b) (window : α → Window) (hw : ∀ x, (window x).id = id x)
    {vs : List (α × List Arrival)} {rest : Book α}
    (hp : (b.map Prod.snd).Perm (vs ++ rest.map Prod.snd)) :
    (l.fire (vs.map fun v => window v.1)).1 = vs.map (fun v => ⟨window v.1, v.2⟩) ∧
      (l.fire (vs.map fun v => window v.1)).2.Holds id rest := by
  have hids : (vs.map fun v => window v.1).map Window.id = vs.map fun v => id v.1 := by
    rw [List.map_map]
    exact List.map_congr_left fun v _ => hw v.1
  have hnodup := (hp.map fun v => id v.1).nodup_iff.1 h.nodup
  rw [List.map_append, List.nodup_append] at hnodup
  obtain ⟨hn, hn', hdisj⟩ := hnodup
  obtain ⟨hfire, hcontent⟩ := fire_eq (l := l)
    (show ((vs.map fun v => window v.1).map Window.id).Nodup from hids ▸ hn)
  have hmem : ∀ v ∈ vs, v ∈ b.map Prod.snd := fun v hv => hp.mem_iff.2 (List.mem_append_left _ hv)
  have hmem' : ∀ v ∈ rest.map Prod.snd, v ∈ b.map Prod.snd := fun v hv =>
    hp.mem_iff.2 (List.mem_append_right _ hv)
  refine ⟨?_, hn', fun v hv => ?_, fun v hv => h.filled v (hmem' v hv), fun i hi => ?_⟩
  · rw [hfire, occupied, List.filter_eq_self.2, List.map_map]
    · exact List.map_congr_left fun v hv => by
        rw [Function.comp, hw, h.content v (hmem v hv)]
    · intro w hw'
      obtain ⟨v, hv, rfl⟩ := List.mem_map.1 hw'
      rw [hw, h.content v (hmem v hv)]
      simpa using h.filled v (hmem v hv)
  · rw [hcontent, hids, if_neg fun hi => hdisj _ hi _ (List.mem_map_of_mem hv) rfl]
    exact h.content v (hmem' v hv)
  · rw [hcontent, hids]
    split
    · rfl
    · next hi' =>
      refine h.outside i fun hb => ?_
      rw [(hp.map fun v => id v.1).mem_iff, List.map_append, List.mem_append] at hb
      exact hb.elim hi' hi

/-- **A record that comes into the window of its group**, which is open already or has a number
    that no window of the book has. -/
theorem enter_holds (h : l.Holds id b) {key : GroupKey} {x : α} (a : Arrival)
    {windows : List Window} (hw : windows.map Window.id = [id x])
    (hold : ∀ v, b.get? key = some v → id x = id v.1)
    (hnew : b.get? key = none → id x ∉ (b.map Prod.snd).map fun v => id v.1) :
    (l.enter a windows).Holds id (b.insert key (x, b.content key ++ [a])) := by
  have hperm := Groups.insert_perm b key (x, b.content key ++ [a])
  have hids := hperm.map fun v => id v.1
  -- what the window had, and that the other windows have other numbers
  obtain ⟨hcontent, hother, hsub⟩ : l.content (id x) = b.content key ∧
      id x ∉ ((b.erase key).map Prod.snd).map (fun v => id v.1) ∧
      ∀ i, i ∈ (b.map Prod.snd).map (fun v => id v.1) →
        i = id x ∨ i ∈ ((b.erase key).map Prod.snd).map fun v => id v.1 := by
    cases hg : b.get? key with
    | some v =>
      have hv := Groups.perm_erase hg
      have hn := ((hv.map fun v => id v.1).nodup_iff.1 h.nodup)
      rw [hold v hg]
      refine ⟨?_, (List.nodup_cons.1 hn).1, fun i hi => ?_⟩
      · rw [h.content v (hv.mem_iff.2 List.mem_cons_self), Book.content_of_some hg]
      · exact List.mem_cons.1 ((hv.map fun v => id v.1).mem_iff.1 hi)
    | none =>
      rw [Groups.erase_of_get?_eq_none hg]
      refine ⟨?_, hnew hg, fun i hi => Or.inr hi⟩
      rw [h.outside _ (hnew hg), Book.content_of_none hg]
  have henter : ∀ i, (l.enter a windows).content i =
      l.content i ++ if i = id x then [a] else [] := fun i => by
    show l.content i ++ List.replicate ((windows.map Window.id).count i) a = _
    rw [hw, List.count_singleton]
    by_cases hi : i = id x
    · simp [hi]
    · simp [hi, Ne.symm hi]
  refine ⟨?_, fun v hv => ?_, fun v hv => ?_, fun i hi => ?_⟩
  · refine hids.nodup_iff.2 (List.nodup_cons.2 ⟨hother, ?_⟩)
    exact List.Nodup.sublist (((Groups.erase_sublist b key).map _).map _) h.nodup
  · rw [henter]
    rcases List.mem_cons.1 (hperm.mem_iff.1 hv) with rfl | hv
    · rw [if_pos rfl, hcontent]
    · have hne : id v.1 ≠ id x := fun he => hother (he ▸ List.mem_map_of_mem hv)
      rw [if_neg hne, List.append_nil]
      exact Groups.forall_erase h.content key v hv
  · exact Groups.forall_insert h.filled key
      (List.append_ne_nil_of_right_ne_nil _ (List.cons_ne_nil _ _)) v hv
  · rw [hids.mem_iff, List.map_cons, List.mem_cons, not_or] at hi
    rw [henter, if_neg hi.1, List.append_nil]
    exact h.outside i fun hb => (hsub i hb).elim hi.1 hi.2

end Ledger

/-! ## A query with groups -/

/-- `SELECT k, COLLECT(id) AS ids FROM s GROUP BY k, CountingWindow(2) WITH (TIMESTAMP='ts')`. -/
def Plan.collectByKey : Plan where
  query := {
    fields := [.column (.column "k") none, .column (.call "COLLECT" [.column "id"]) (some "ids")]
    distinct := false
    source := "s"
    condition := none
    groupBy := [.column "k"]
    window := some (.counting 2)
    having := none
    limit := none
    properties := [("TIMESTAMP", "ts")] }
  condition := none
  groupBy := [.ofExpr (.column "k")]
  slots := [{
    name := "COLLECT"
    input := some (.ofExpr (.column "id"))
    parameters := []
    signature := "COLLECT(id)"
    function := ⟨.exactly 1, fun _ => .ok (.collect [])⟩ }]
  outputs := [.column "k" (.ofExpr (.column "k")), .column "ids" (.ofExpr (.slot 0))]
  having := none
  window := some (.counting 2)
  timestamp := some ⟨"ts", .millisecond⟩
  registry := {}

/-- A record with its key, its number and its event time. -/
def Record.keyed (key id time : Int64) : Record :=
  ⟨[("k", .integer key), ("id", .integer id), ("ts", .integer time)]⟩

/-- Records of two keys in turn, out of order, with a poll between them. -/
def Event.interleaved : List Event :=
  [.arrival 0 (.keyed 1 1 3), .arrival 0 (.keyed 2 2 4), .poll 9, .arrival 0 (.keyed 1 3 1)]

end StreamSql
