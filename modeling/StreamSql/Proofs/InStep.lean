/-
  The open windows of a query and the groups that it holds for them.

  A query keeps both apart: the policy knows which windows are open, and the arena has their
  groups.  `play_in_step`: after any history of calls that succeeded, whatever the policy, the
  arena has the groups of the open windows and of no others, and every window that was ever
  opened is open, or fired once, or was discarded.  A policy with windows of each group has a
  list of the groups beside the windows, and these two are in step as well.

  * `Arena.Holds`: the arena has one row for each of some windows, with at least one group;
  * `Groups.ListedBy t order`: the list has exactly the groups of the table, each once;
  * `OpenWindows.byGroup?`: the windows by group, and the list of the groups;
  * `WindowedRun.closes`: the windows that an event closes; `WindowedRun.fates`: what became of
    all that closed;
  * `Stepped`: what one event does.
-/
import StreamSql.Proofs.Early

namespace StreamSql

/-! ## Rows of the arena -/

namespace Arena

/-- The windows that have a row. -/
def ids (a : Arena) : List Nat :=
  a.map Prod.fst

theorem mem_ids_erase {a : Arena} {id other : Nat} :
    other ∈ (a.erase id).ids ↔ other ∈ a.ids ∧ other ≠ id := by
  simp only [ids, erase, List.mem_map, List.mem_filter, bne_iff_ne]
  constructor
  · rintro ⟨row, ⟨hrow, hne⟩, rfl⟩
    exact ⟨⟨row, hrow, rfl⟩, hne⟩
  · rintro ⟨⟨row, hrow, rfl⟩, hne⟩
    exact ⟨row, ⟨hrow, hne⟩, rfl⟩

theorem mem_ids_set {a : Arena} {id other : Nat} {groups : Groups Group} :
    other ∈ (a.set id groups).ids ↔ other ∈ a.ids ∨ other = id := by
  rw [ids, set, List.map_append, List.mem_append, ← ids, mem_ids_erase, List.map_cons, List.map_nil,
    List.mem_singleton]
  by_cases h : other = id <;> simp [h]

theorem lookup_of_mem {a : Arena} {id : Nat} (h : id ∈ a.ids) :
    ∃ groups, a.lookup id = some groups ∧ (id, groups) ∈ a := by
  induction a with
  | nil => cases h
  | cons row rest ih =>
    rw [lookup_row]
    by_cases hid : id = row.1
    · exact ⟨row.2, if_pos hid, hid ▸ List.mem_cons_self⟩
    · obtain ⟨groups, hl, hmem⟩ := ih ((List.mem_cons.1 h).resolve_left hid)
      exact ⟨groups, (if_neg hid).trans hl, List.mem_cons_of_mem _ hmem⟩

/-- There is one row for each of these windows, with at least one group, and no other row. -/
structure Holds (a : Arena) (windows : List Nat) : Prop where
  nodup : a.ids.Nodup
  mem : ∀ id, id ∈ a.ids ↔ id ∈ windows
  filled : ∀ row ∈ a, row.2 ≠ []

variable {a : Arena} {windows : List Nat}

theorem holds_nil : Holds [] [] :=
  ⟨List.nodup_nil, fun _ => Iff.rfl, fun _ h => absurd h List.not_mem_nil⟩

theorem Holds.congr {others : List Nat} (h : a.Holds windows)
    (hw : ∀ id, id ∈ windows ↔ id ∈ others) : a.Holds others :=
  ⟨h.nodup, fun id => (h.mem id).trans (hw id), h.filled⟩

theorem Holds.erase {id : Nat} {rest : List Nat} (h : a.Holds (id :: rest)) (hid : id ∉ rest) :
    (a.erase id).Holds rest := by
  refine ⟨h.nodup.sublist (List.filter_sublist.map _), fun other => ?_, fun row hrow =>
    h.filled row (List.mem_filter.1 hrow).1⟩
  rw [mem_ids_erase, h.mem, List.mem_cons]
  constructor
  · rintro ⟨he | hmem, hne⟩
    · exact absurd he hne
    · exact hmem
  · exact fun hmem => ⟨Or.inr hmem, fun he => hid (he ▸ hmem)⟩

theorem Holds.set (h : a.Holds windows) (id : Nat) {groups : Groups Group} (hg : groups ≠ []) :
    (a.set id groups).Holds (windows ++ [id]) := by
  refine ⟨?_, fun other => ?_, fun row hrow => ?_⟩
  · rw [ids, Arena.set, List.map_append]
    refine List.nodup_append.2 ⟨h.nodup.sublist (List.filter_sublist.map _), List.nodup_singleton _,
      fun other ho new hn he => ?_⟩
    rw [List.mem_singleton.1 hn] at he
    exact (mem_ids_erase.1 ho).2 he
  · rw [mem_ids_set, h.mem, List.mem_append, List.mem_singleton]
  · rcases List.mem_append.1 hrow with hrow | hrow
    · exact h.filled row (List.mem_filter.1 hrow).1
    · rw [List.mem_singleton.1 hrow]
      exact hg

/-- The groups of a window that has a row. -/
theorem Holds.groups_ne_nil {id : Nat} (h : a.Holds windows) (hid : id ∈ windows) :
    a.groups id ≠ [] := by
  obtain ⟨held, hl, hmem⟩ := lookup_of_mem ((h.mem id).2 hid)
  rw [Arena.groups, hl]
  exact h.filled _ hmem

end Arena

namespace WindowedRun

variable {r : WindowedRun}

/-! ## Firing -/

/-- **Windows that have groups** fire, each of them once, and have no groups any more. -/
theorem fire_holds {windows : List Window} {rest : List Nat}
    (h : r.arena.Holds (windows.map Window.id ++ rest))
    (hn : (windows.map Window.id ++ rest).Nodup) :
    ∃ batches arena, r.fire windows =
        (batches, { r with arena, fired := r.fired + windows.length }) ∧
      batches.map Batch.window = windows.map (fun w => some w.bounds) ∧ arena.Holds rest := by
  induction windows generalizing r with
  | nil => exact ⟨[], r.arena, rfl, rfl, h⟩
  | cons w windows ih =>
    obtain ⟨hw, hn⟩ := List.nodup_cons.1 hn
    have hone : r.fireOne w = ([r.batch w.bounds (r.arena.groups w.id)],
        { r with arena := r.arena.erase w.id, fired := r.fired + 1 }) := by
      rw [fireOne]
      split
      · next he => exact absurd he (h.groups_ne_nil List.mem_cons_self)
      · rfl
    obtain ⟨batches, arena, hfire, hbounds, hrest⟩ := ih
      (r := { r with arena := r.arena.erase w.id, fired := r.fired + 1 }) (h.erase hw) hn
    refine ⟨r.batch w.bounds (r.arena.groups w.id) :: batches, arena, ?_,
      congrArg _ hbounds, hrest⟩
    simp only [fire, hone, hfire, List.length_cons, Nat.add_assoc, Nat.add_comm 1]
    rfl

/-- What closing and firing windows leaves as it is. -/
def frame (r : WindowedRun) : Plan × Int64 × Dial :=
  (r.plan, r.lateness, r.dial)

/-- Some windows closed and fired. -/
structure Closed (r : WindowedRun) (c : List Window × OpenWindows) (batches : List Batch)
    (s : WindowedRun) : Prop where
  made : batches.map Batch.window = c.1.map fun w => some w.bounds
  windows : s.windows = c.2
  fired : s.fired = r.fired + c.1.length
  frame : s.frame = r.frame

/-- Some windows close, and the arena has the groups of the others. -/
theorem settle_holds {c : List Window × OpenWindows} {kept : List Nat}
    (h : r.arena.Holds r.windows.ids) (hn : r.windows.ids.Nodup)
    (hc : r.windows.ids.Perm (c.1.map Window.id ++ kept)) :
    Closed r c (r.settle c).1 (r.settle c).2 ∧ (r.settle c).2.arena.Holds kept := by
  obtain ⟨batches, arena, hfire, hmade, harena⟩ := fire_holds (r := { r with windows := c.2 })
    (h.congr fun _ => hc.mem_iff) (hc.nodup_iff.1 hn)
  rw [settle, hfire]
  exact ⟨⟨hmade, rfl, rfl, rfl⟩, harena⟩

/-- **A record that is folded into windows** gives all of them a row. -/
theorem foldlM_holds {record : Record} {key : GroupKey} {contributions : List Value}
    {windows : List Window} {s : WindowedRun} {held : List Nat} (h : r.arena.Holds held)
    (hf : windows.foldlM (fun r w => r.fold record key contributions w) r = .ok s) :
    s.arena.Holds (held ++ windows.map Window.id) ∧ s.windows = r.windows ∧ s.fired = r.fired ∧
      s.frame = r.frame := by
  induction windows generalizing r held with
  | nil =>
    obtain rfl := Except.ok.inj hf
    exact ⟨by rwa [List.map_nil, List.append_nil], rfl, rfl, rfl⟩
  | cons w windows ih =>
    rw [List.foldlM_cons] at hf
    obtain ⟨t, ht, hf⟩ := bind_eq_ok.1 hf
    obtain ⟨group, -, ht⟩ := bind_eq_ok.1 ht
    obtain rfl := Except.ok.inj ht
    have hne : (r.arena.groups w.id).insert key (group.add contributions) ≠ [] := by
      cases r.arena.groups w.id with
      | nil => exact List.cons_ne_nil _ _
      | cons row rest =>
        rw [Groups.insert]
        split <;> exact List.cons_ne_nil _ _
    obtain ⟨hs, hrest⟩ := ih (r := { r with arena := r.arena.set w.id _ }) (h.set w.id hne) hf
    exact ⟨by rwa [List.append_assoc] at hs, hrest⟩

theorem noteLate_same (r : WindowedRun) (windows : List Window) :
    (r.noteLate windows).arena = r.arena ∧ (r.noteLate windows).windows = r.windows ∧
      (r.noteLate windows).fired = r.fired ∧ (r.noteLate windows).frame = r.frame := by
  unfold noteLate
  split <;> exact ⟨rfl, rfl, rfl, rfl⟩

end WindowedRun

/-! ## What the policies keep -/

namespace Groups

variable {α : Type} {t : Groups α} {order : GroupOrder}

/-- The list has the keys of the table and no others, and no group twice; exactly the groups on
    the list have a value. -/
structure ListedBy (t : Groups α) (order : GroupOrder) : Prop where
  distinct : order.Pairwise fun a b => a.same b = false
  keys : (t.map Prod.fst).Perm order
  listed : ∀ key, (t.get? key).isSome = true ↔ ∃ k ∈ order, k.same key = true

theorem InOrder.listedBy (h : t.InOrder order) : t.ListedBy order := by
  obtain ⟨hapart, rfl⟩ := h
  refine ⟨hapart, List.Perm.refl _, fun key => ?_⟩
  rw [← not_iff_not, Bool.not_eq_true, Option.isSome_eq_false_iff, Option.isNone_iff_eq_none,
    get?_eq_none_iff]
  simp

/-- The values of the groups on the list are those of the table. -/
theorem InOrder.filterMap_get? (h : t.InOrder order) :
    order.filterMap t.get? = t.map Prod.snd := by
  obtain ⟨hapart, rfl⟩ := h
  rw [List.filterMap_map, ← List.filterMap_eq_map]
  exact List.filterMap_congr fun row hrow => hapart.get?_of_mem hrow (GroupKey.same_refl row.1)

/-- Other values do not change the groups. -/
theorem InOrder.map {β : Type} (h : t.InOrder order) (f : α → β) :
    InOrder (t.map fun row => (row.1, f row.2)) order := by
  obtain ⟨hapart, rfl⟩ := h
  exact ⟨(apart_map f).2 hapart, by rw [List.map_map]; rfl⟩

end Groups

namespace OpenWindows

/-- The windows that are full and have not been taken. -/
def ready : OpenWindows → List Window
  | counting w => w.ready
  | _ => []

/-- The open windows by their groups and the list of the groups, where every group has windows
    of its own. -/
def byGroup? : OpenWindows → Option (Groups Window × GroupOrder)
  | aligned _ => none
  | counting w => some (w.opened.map fun row => (row.1, row.2.window), w.order)
  | session w => some (w.opened.map fun row => (row.1, row.2.window w.gap), w.order)

variable {w : OpenWindows}

/-- **The list of the groups** is in step with their windows. -/
theorem InOrder.byGroup? (h : w.InOrder) {t : Groups Window} {order : GroupOrder}
    (ht : w.byGroup? = some (t, order)) : t.InOrder order ∧ t.map Prod.snd = w.windows := by
  cases w with
  | aligned w => cases ht
  | counting w =>
    obtain ⟨rfl, rfl⟩ := Prod.mk.inj (Option.some.inj ht)
    exact ⟨Groups.InOrder.map h _, List.map_map⟩
  | session w =>
    obtain ⟨rfl, rfl⟩ := Prod.mk.inj (Option.some.inj ht)
    exact ⟨Groups.InOrder.map h fun s : Session => s.window w.gap, List.map_map⟩

theorem ids_of_ready (h : w.ready = []) : w.ids = w.windows.map Window.id := by
  cases w with
  | aligned w => simp [ids, windows, AlignedWindows.opened, AlignedWindows.window]
  | counting w =>
    rw [ready] at h
    simp [ids, windows, h, Tally.window]
  | session w => simp [ids, windows, Session.window]

theorem takeReady_ready (w : OpenWindows) : w.takeReady.2.ready = [] := by
  cases w <;> rfl

theorem closeHorizon_ready (w : OpenWindows) (horizon : Option Int64) :
    (w.closeHorizon horizon).2.ready = w.ready := by
  cases horizon <;> cases w <;> rfl

theorem closeAll_ready (w : OpenWindows) : w.closeAll.2.ready = [] := by
  cases w <;> rfl

/-- Every number that is given to windows on a grid goes to one of those that are entered. -/
theorem mem_enterAll_of_new {starts : List Int64} {w : AlignedWindows} {id : Nat}
    (hlo : w.starts.next ≤ id) (hhi : id < (w.enterAll starts).2.starts.next) :
    id ∈ (w.enterAll starts).1.map Window.id := by
  induction starts generalizing w with
  | nil => exact absurd hhi (Nat.not_lt.2 hlo)
  | cons start rest ih =>
    cases hf : OpenStarts.find? start w.starts.rows with
    | some known =>
      have he : w.starts.enter start = (known, w.starts) := by rw [OpenStarts.enter, hf]
      rw [AlignedWindows.enterAll, he] at hhi ⊢
      exact List.mem_cons_of_mem _ (ih hlo hhi)
    | none =>
      obtain ⟨t, he, -, hnext⟩ := enter_of_none hf
      rw [AlignedWindows.enterAll, he] at hhi ⊢
      rcases Nat.eq_or_lt_of_le hlo with hid | hid
      · exact List.mem_cons.2 (Or.inl hid.symm)
      · exact List.mem_cons_of_mem _ (ih (w := { w with starts := t }) (hnext ▸ hid) hhi)

/-- **Every number that is given** goes to a window of the record. -/
theorem mem_assigned_of_new {time : Int64} {key : GroupKey} {id : Nat} (hlo : w.next ≤ id)
    (hhi : id < (w.assign time key).2.next) :
    id ∈ (w.assign time key).1.windows.map Window.id := by
  cases w with
  | aligned w =>
    exact mem_enterAll_of_new hlo hhi
  | counting w =>
    simp only [assign, next] at hlo hhi ⊢
    cases hg : w.opened.get? key with
    | some t =>
      -- a window that is open already takes no number
      have hnext : (w.assign time key).2.next = w.next := by
        rw [CountingWindows.assign_of_some hg]
        simp only
        split <;> rfl
      omega
    | none =>
      have hnext : (w.assign time key).2.next = w.next + 1 := by
        rw [CountingWindows.assign_of_none hg]
        simp only
        split <;> rfl
      rw [CountingWindows.assign_of_none hg]
      exact List.mem_singleton.2
        (Nat.le_antisymm (Nat.le_of_lt_succ (Nat.lt_of_lt_of_eq hhi hnext)) hlo)
  | session w =>
    have hn := (expire_perm w time key).2
    simp only [assign, SessionWindows.assign, next] at hlo hhi ⊢
    cases hg : (w.expire time key).2.opened.get? key with
    | some s =>
      rw [SessionWindows.join_of_some hg] at hhi
      exact absurd (hn ▸ hhi) (Nat.not_lt.2 hlo)
    | none =>
      rw [SessionWindows.join_of_none hg] at hhi ⊢
      exact List.mem_singleton.2 (Nat.le_antisymm (Nat.le_of_lt_succ hhi) (hn ▸ hlo))

/-- The windows that are open once a record is in its windows. -/
theorem Assigning.mem_kept_or_assigned {c : Assignment × OpenWindows} {kept opened : List Nat}
    (h : w.Assigning c kept opened) {id : Nat} :
    id ∈ kept ++ c.1.windows.map Window.id ↔ id ∈ c.2.ids := by
  rw [List.mem_append, h.perm.mem_iff, List.mem_append]
  constructor
  · rintro (hid | hid)
    · exact Or.inl hid
    · exact List.mem_append.1 (h.perm.mem_iff.1 (h.assigned id hid))
  · exact Or.imp_right (h.entered id)

/-- The windows that are open after the arrival of a record. -/
def afterRecord (w : OpenWindows) (time : Int64) (key : GroupKey) (mark : Option Int64) :
    OpenWindows :=
  ((w.assign time key).2.takeReady.2.closeHorizon mark).2

/-- **A record closes windows and opens windows**, and all numbers that it gives are those of
    windows that it opens. -/
theorem closedBy_perm (hw : w.Numbered) (time : Int64) (key : GroupKey) (mark : Option Int64) :
    ∃ opened, (w.ids ++ opened).Perm
        ((w.closedBy time key mark).map Window.id ++ (w.afterRecord time key mark).ids) ∧
      (List.range w.next ++ opened).Perm (List.range (w.afterRecord time key mark).next) := by
  obtain ⟨kept, opened, hc⟩ := assign_assigning hw.inOrder time key
  have hready := takeReady_closing hc.inOrder
  have hdue := closeHorizon_closing hready.inOrder mark
  refine ⟨opened, ?_, ?_⟩
  · rw [closedBy, List.map_append, List.map_append, List.append_assoc, List.append_assoc]
    refine (hc.closed.append_right opened).trans ?_
    rw [List.append_assoc]
    refine List.Perm.append_left _ (hc.perm.symm.trans (hready.perm.trans ?_))
    exact hdue.perm.append_left _
  · have hnext : (w.afterRecord time key mark).next = (w.assign time key).2.next :=
      hdue.next.trans hready.next
    have hkept : ∀ id ∈ kept, id < w.next := fun id hid =>
      hw.lt_next id (hc.closed.mem_iff.2 (List.mem_append_right _ hid))
    rw [hnext, List.perm_ext_iff_of_nodup _ List.nodup_range]
    · intro id
      rw [List.mem_append, List.mem_range, List.mem_range]
      constructor
      · rintro (hid | hid)
        · exact Nat.lt_of_lt_of_le hid hc.next_le
        · exact (hc.fresh id hid).2
      · intro hid
        refine (Nat.lt_or_ge id w.next).imp_right fun hlo => ?_
        have hmem := hc.perm.mem_iff.1 (hc.assigned id (mem_assigned_of_new hlo hid))
        exact (List.mem_append.1 hmem).resolve_left fun hk => Nat.not_lt.2 hlo (hkept id hk)
    · refine List.nodup_append.2 ⟨List.nodup_range, hc.nodup, fun id hid other ho he => ?_⟩
      exact Nat.not_lt.2 (hc.fresh other ho).1 (he ▸ List.mem_range.1 hid)

end OpenWindows

/-! ## One event -/

namespace WindowedRun

/-- The windows that an event closes. -/
def closes (r : WindowedRun) : Event → List Window
  | .arrival now record =>
    let dial := r.dial.after r.plan (.arrival now record)
    r.windows.closedBy (dial.timeOf r.plan record) (r.plan.groupKey record)
      (dial.horizon r.plan r.lateness)
  | .poll now =>
    (r.windows.closeHorizon ((r.dial.after r.plan (.poll now)).horizon r.plan r.lateness)).1
  | .trigger | .discard => r.windows.closeAll.1

/-- The windows are in good order, and the arena has the groups of those that are open. -/
structure Sound (r : WindowedRun) : Prop where
  numbered : r.windows.Numbered
  ready : r.windows.ready = []
  holds : r.arena.Holds r.windows.ids

/-- What one event does: it fires or drops the windows that it closes, and gives the numbers
    that follow to those that it opens. -/
structure Stepped (r : WindowedRun) (e : Event) (batches : List Batch) (s : WindowedRun) :
    Prop where
  sound : s.Sound
  made : batches.map Batch.window =
    (if e.keeps then r.closes e else []).map fun w => some w.bounds
  fired : s.fired = r.fired + batches.length
  numbers : ∃ opened, (r.windows.ids ++ opened).Perm ((r.closes e).map Window.id ++ s.windows.ids) ∧
    (List.range r.windows.next ++ opened).Perm (List.range s.windows.next)

variable {r s : WindowedRun} {batches : List Batch}

theorem fireOverdue_eq (r : WindowedRun) (time : Int64) :
    r.fireOverdue time = r.settle (r.windows.closeHorizon (r.horizon time)) := by
  unfold fireOverdue
  cases r.horizon time <;> rfl

theorem poll_eq (r : WindowedRun) (now : Int64) :
    ∃ latestClock, r.poll now = { r with latestClock }.settle (r.windows.closeHorizon
      ((r.dial.after r.plan (.poll now)).horizon r.plan r.lateness)) := by
  unfold poll hasEventTime Dial.horizon Dial.after
  rw [watermark_eq]
  cases r.plan.timestamp with
  | some event =>
    refine ⟨r.latestClock, ?_⟩
    simp only [Option.isSome_some, if_true]
    cases r.dial.watermark r.lateness <;> rfl
  | none => exact ⟨max now r.latestClock, rfl⟩

/-- The time that the windows are checked against once a record was seen. -/
theorem horizon_eq {now : Int64} {record : Record}
    (h : s.frame = (r.plan, r.lateness, r.dial.after r.plan (.arrival now record))) :
    s.horizon ((r.dial.after r.plan (.arrival now record)).timeOf r.plan record) =
      (r.dial.after r.plan (.arrival now record)).horizon r.plan r.lateness := by
  obtain ⟨hplan, h⟩ := Prod.mk.inj h
  obtain ⟨hlate, hdial⟩ := Prod.mk.inj h
  rw [horizon, watermark_eq, hasEventTime, hplan, hlate, hdial, Dial.horizon]
  cases ht : r.plan.timestamp with
  | none => simp [Dial.timeOf, Plan.eventTime?, ht]
  | some event => rfl

/-- **Windows that close while nothing arrives** fire. -/
theorem settle_stepped {e : Event} (h : r.Sound) {c : List Window × OpenWindows}
    (hc : r.windows.Closing c) (hready : c.2.ready = [])
    (he : r.closes e = c.1) (hkeeps : e.keeps = true) (latestClock : Int64) :
    Stepped r e ({ r with latestClock }.settle c).1 ({ r with latestClock }.settle c).2 := by
  obtain ⟨hclosed, harena⟩ :=
    settle_holds (r := { r with latestClock }) h.holds h.numbered.nodup hc.perm
  rw [← hclosed.windows] at hready harena
  refine ⟨⟨?_, hready, harena⟩, ?_, ?_, [], ?_, ?_⟩
  · rw [hclosed.windows]
    exact hc.assigning.numbered h.numbered
  · rw [if_pos hkeeps, he, hclosed.made]
  · rw [hclosed.fired, ← List.length_map Batch.window, hclosed.made, List.length_map]
  · rw [List.append_nil, he, hclosed.windows]
    exact hc.perm
  · rw [List.append_nil, hclosed.windows, hc.next]

/-- **A record**, unless it fails. -/
theorem process_stepped (h : r.Sound) {now : Int64} {record : Record}
    (hp : r.process now record = .ok (batches, s)) :
    Stepped r (.arrival now record) batches s := by
  obtain ⟨fallbacks, htime⟩ := r.recordTime_eq now record
  let d := r.dial.after r.plan (.arrival now record)
  let time := d.timeOf r.plan record
  let c := r.windows.assign time (r.plan.groupKey record)
  let mark := d.horizon r.plan r.lateness
  obtain ⟨kept, opened, hc⟩ := OpenWindows.assign_assigning h.numbered.inOrder time
    (r.plan.groupKey record)
  have hnum : c.2.Numbered := hc.numbered h.numbered
  have hready := OpenWindows.takeReady_closing hc.inOrder
  have hdue := OpenWindows.closeHorizon_closing hready.inOrder mark
  -- what the record ends fires, and the arena keeps the groups of the other windows
  obtain ⟨hended, ha⟩ := settle_holds
    (r := { r with latestEvent := d.latestEvent, latestClock := d.latestClock, fallbacks })
    (c := (c.1.closed, c.2)) h.holds h.numbered.nodup hc.closed
  unfold process at hp
  simp only [htime] at hp
  generalize WindowedRun.settle _ _ = ended at hp hended ha
  -- then the record comes into its windows, all of which have a row now
  obtain ⟨r₁, hfold, hp⟩ := bind_eq_ok.1 hp
  obtain ⟨ha₁, hw₁, hf₁, hframe₁⟩ := ended.2.noteLate_same c.1.windows
  obtain ⟨ha₂, hw₂, hf₂, hframe₂⟩ := foldlM_holds (ha₁.symm ▸ ha) hfold
  replace ha₂ := ha₂.congr fun id => hc.mem_kept_or_assigned
  have hw : r₁.windows = c.2 := hw₂.trans (hw₁.trans hended.windows)
  -- and the windows fire that are full and then those that are due
  have hperm : r₁.windows.ids.Perm
      (c.2.takeReady.1.map Window.id ++ c.2.takeReady.2.ids) := hw ▸ hready.perm
  obtain ⟨hfull, ha⟩ := settle_holds (c := c.2.takeReady) (hw ▸ ha₂) (hw ▸ hnum.nodup) hperm
  simp only [fireReady, hw] at hp
  generalize r₁.settle c.2.takeReady = full at hp hfull ha
  have hframe : full.2.frame = (r.plan, r.lateness, r.dial.after r.plan (.arrival now record)) :=
    hfull.frame.trans (hframe₂.trans (hframe₁.trans hended.frame))
  rw [fireOverdue_eq, horizon_eq hframe, hfull.windows] at hp
  have hperm' : full.2.windows.ids.Perm ((c.2.takeReady.2.closeHorizon mark).1.map Window.id ++
      (c.2.takeReady.2.closeHorizon mark).2.ids) := by
    rw [hfull.windows]
    exact hdue.perm
  obtain ⟨hlast, ha⟩ := settle_holds (hfull.windows ▸ ha)
    (hfull.windows ▸ (hready.assigning.numbered hnum).nodup) hperm'
  generalize full.2.settle (c.2.takeReady.2.closeHorizon mark) = due at hp hlast ha
  obtain ⟨rfl, rfl⟩ := Prod.mk.inj (Except.ok.inj hp)
  have hmade : (ended.1 ++ full.1 ++ due.1).map Batch.window =
      (r.closes (.arrival now record)).map fun w => some w.bounds := by
    rw [List.map_append, List.map_append, hended.made, hfull.made, hlast.made,
      ← List.map_append, ← List.map_append]
    rfl
  rw [← hlast.windows] at ha
  refine ⟨⟨?_, ?_, ha⟩, hmade, ?_, ?_⟩
  · rw [hlast.windows]
    exact hdue.assigning.numbered (hready.assigning.numbered hnum)
  · rw [hlast.windows, OpenWindows.closeHorizon_ready, OpenWindows.takeReady_ready]
  · rw [hlast.fired, hfull.fired, hf₂, hf₁, hended.fired, ← List.length_map Batch.window, hmade,
      List.length_map]
    show _ = r.fired + (c.1.closed ++ c.2.takeReady.1 ++ _).length
    rw [List.length_append, List.length_append, ← Nat.add_assoc, ← Nat.add_assoc]
  · rw [hlast.windows]
    exact OpenWindows.closedBy_perm h.numbered time _ mark

/-- **One event**, unless it fails. -/
theorem step_stepped (h : r.Sound) {e : Event} (hs : r.step e = .ok (batches, s)) :
    Stepped r e batches s := by
  cases e with
  | arrival now record => exact process_stepped h hs
  | poll now =>
    obtain ⟨latestClock, hpoll⟩ := poll_eq r now
    have he := Except.ok.inj hs
    rw [hpoll] at he
    rw [show s = _ from (congrArg Prod.snd he).symm,
      show batches = _ from (congrArg Prod.fst he).symm]
    exact settle_stepped h (OpenWindows.closeHorizon_closing h.numbered.inOrder _)
      ((OpenWindows.closeHorizon_ready ..).trans h.ready) rfl rfl latestClock
  | trigger =>
    have he := Except.ok.inj hs
    rw [show s = _ from (congrArg Prod.snd he).symm,
      show batches = _ from (congrArg Prod.fst he).symm]
    exact settle_stepped h (OpenWindows.closeAll_closing h.numbered.inOrder)
      (OpenWindows.closeAll_ready _) rfl rfl r.latestClock
  | discard =>
    obtain ⟨rfl, rfl⟩ := Prod.mk.inj (Except.ok.inj hs)
    have hc := OpenWindows.closeAll_closing h.numbered.inOrder
    have hnone := OpenWindows.closeAll_ids h.numbered.inOrder
    refine ⟨⟨hc.assigning.numbered h.numbered, OpenWindows.closeAll_ready _, ?_⟩, rfl, rfl, [],
      ?_, ?_⟩
    · show Arena.Holds [] r.windows.closeAll.2.ids
      rw [hnone]
      exact Arena.holds_nil
    · rw [List.append_nil]
      exact hc.perm
    · rw [List.append_nil]
      exact List.Perm.of_eq (congrArg List.range hc.next.symm)

/-! ## Histories -/

/-- What became of the windows that closed. -/
structure Fates where
  fired : List Window := []
  discarded : List Window := []

/-- What a history does to the windows that it closes: those that `discard` closes are
    discarded, and all others fire. -/
def fates (r : WindowedRun) : List Event → Fates
  | [] => {}
  | e :: rest =>
    match r.step e with
    | .error _ => {}
    | .ok (_, s) =>
      let later := s.fates rest
      if e.keeps then { later with fired := r.closes e ++ later.fired }
      else { later with discarded := r.closes e ++ later.discarded }

theorem fates_cons {e : Event} {rest : List Event} (h : r.step e = .ok (batches, s)) :
    r.fates (e :: rest) =
      ⟨(if e.keeps then r.closes e else []) ++ (s.fates rest).fired,
        (if e.keeps then [] else r.closes e) ++ (s.fates rest).discarded⟩ := by
  rw [fates, h]
  cases e.keeps <;> rfl

theorem ofSpec_sound (p : Plan) (spec : WindowSpec) (config : Config) :
    (start p spec config).Sound := by
  have hids : (start p spec config).windows.ids = [] := OpenWindows.ofSpec_ids spec
  refine ⟨OpenWindows.ofSpec_numbered spec, ?_, ?_⟩
  · cases spec <;> rfl
  · rw [hids]
    exact Arena.holds_nil

/-- What a history does, unless it fails. -/
theorem play_stepped (events : List Event) (h : r.Sound) (hp : r.play events = .ok (batches, s)) :
    s.Sound ∧ batches.map Batch.window = ((r.fates events).fired.map fun w => some w.bounds) ∧
      s.fired = r.fired + batches.length ∧
      ∃ opened, (r.windows.ids ++ opened).Perm ((r.fates events).fired.map Window.id ++
          (r.fates events).discarded.map Window.id ++ s.windows.ids) ∧
        (List.range r.windows.next ++ opened).Perm (List.range s.windows.next) := by
  induction events generalizing r batches with
  | nil =>
    obtain ⟨rfl, rfl⟩ := Prod.mk.inj (Except.ok.inj hp)
    exact ⟨h, rfl, rfl, [], by simp [fates], by simp⟩
  | cons e rest ih =>
    obtain ⟨made, t, more, hstep, hrest, rfl⟩ := play_cons_iff.1 hp
    obtain ⟨ht, hmade, hfired, opened, hids, hnext⟩ := step_stepped h hstep
    obtain ⟨hs, hmore, hfired', opened', hids', hnext'⟩ := ih ht hrest
    rw [fates_cons hstep]
    refine ⟨hs, ?_, ?_, opened ++ opened', ?_, ?_⟩
    · rw [List.map_append, List.map_append, hmade, hmore]
    · rw [hfired', hfired, List.length_append, Nat.add_assoc]
    · rw [← List.append_assoc]
      refine (hids.append_right opened').trans ?_
      rw [List.append_assoc]
      refine (hids'.append_left _).trans ?_
      cases e.keeps with
      | true => simp
      | false =>
        simp only [Bool.false_eq_true, if_false, List.nil_append, List.map_append]
        rw [← List.append_assoc, ← List.append_assoc, ← List.append_assoc]
        exact (List.perm_append_comm.append_right _).append_right _
    · rw [← List.append_assoc]
      exact (hnext.append_right _).trans hnext'

/-- The arena has one row for each open window and no other row, and every row has a group; no
    window waits to be taken; and where every group has windows of its own, the list of the
    groups has those of the open windows and no others, none of them twice, and the windows are
    found along the list. -/
structure InStep (r : WindowedRun) : Prop where
  nodup : r.arena.ids.Nodup
  rows : r.arena.ids.Perm (r.windows.windows.map Window.id)
  filled : ∀ row ∈ r.arena, row.2 ≠ []
  ready : r.windows.ready = []
  listed : ∀ t order, r.windows.byGroup? = some (t, order) →
    t.ListedBy order ∧ order.filterMap t.get? = r.windows.windows

theorem Sound.inStep (h : r.Sound) : r.InStep := by
  have hids := OpenWindows.ids_of_ready h.ready
  refine ⟨h.holds.nodup, ?_, h.holds.filled, h.ready, fun t order ht => ?_⟩
  · rw [← hids]
    exact (List.perm_ext_iff_of_nodup h.holds.nodup h.numbered.nodup).2 h.holds.mem
  · obtain ⟨horder, hwindows⟩ := h.numbered.inOrder.byGroup? ht
    exact ⟨horder.listedBy, horder.filterMap_get?.trans hwindows⟩

/-- **The windows and the arena stay in step** whatever the policy is and whatever happens, as
    long as no record fails.  Every window that was ever opened is open, or fired, or was
    discarded, and only one of them and once; and there is a batch for each that fired. -/
theorem play_in_step {p : Plan} {spec : WindowSpec} {config : Config} {events : List Event}
    {batches : List Batch} {r : WindowedRun}
    (h : (start p spec config).play events = .ok (batches, r)) :
    r.InStep ∧
      (((start p spec config).fates events).fired.map Window.id ++
        ((start p spec config).fates events).discarded.map Window.id ++
          r.windows.windows.map Window.id).Perm (List.range r.windows.next) ∧
      batches.map Batch.window =
        ((start p spec config).fates events).fired.map (fun w => some w.bounds) ∧
      r.stats.fired = batches.length := by
  obtain ⟨hr, hmade, hfired, opened, hids, hnext⟩ :=
    play_stepped events (ofSpec_sound p spec config) h
  refine ⟨hr.inStep, ?_, hmade, hfired.trans (Nat.zero_add _)⟩
  have hnone : (start p spec config).windows.ids = [] := OpenWindows.ofSpec_ids spec
  have hzero : (start p spec config).windows.next = 0 := by cases spec <;> rfl
  rw [hnone, List.nil_append, OpenWindows.ids_of_ready hr.ready] at hids
  rw [hzero, List.range_zero, List.nil_append] at hnext
  exact hids.symm.trans hnext

/-- Sessions of 5 milliseconds: the record at 20 ends the session of the record at 3, is
    discarded with its own, and a third session stays open. -/
theorem play_in_step_discarded :
    ∃ batches r, (start .collectIds (.session ⟨5000000⟩) {}).play
        [.arrival 0 (.numbered 1 3), .arrival 0 (.numbered 2 20), .discard,
          .arrival 0 (.numbered 3 21), .poll 0] = .ok (batches, r) ∧
      r.InStep ∧ r.arena.ids = [2] ∧ (r.windows.byGroup?.map fun t => t.2.length) = some 1 ∧
      r.windows.next = 3 ∧ r.stats.fired = 1 := by
  have hrun : ((start .collectIds (.session ⟨5000000⟩) {}).play
      [.arrival 0 (.numbered 1 3), .arrival 0 (.numbered 2 20), .discard,
        .arrival 0 (.numbered 3 21), .poll 0]).toOption.map
        (fun y => (y.2.arena.ids, y.2.windows.byGroup?.map fun t => t.2.length,
          y.2.windows.next, y.2.stats.fired)) = some ([2], some 1, 3, 1) := by
    decide +kernel
  cases hplay : (start .collectIds (.session ⟨5000000⟩) {}).play
      [.arrival 0 (.numbered 1 3), .arrival 0 (.numbered 2 20), .discard,
        .arrival 0 (.numbered 3 21), .poll 0] with
  | error => rw [hplay] at hrun; cases hrun
  | ok y =>
    rw [hplay] at hrun
    obtain ⟨hids, hrest⟩ := Prod.mk.inj (Option.some.inj hrun)
    obtain ⟨hlisted, hrest⟩ := Prod.mk.inj hrest
    obtain ⟨hnext, hfired⟩ := Prod.mk.inj hrest
    exact ⟨y.1, y.2, rfl, (play_in_step hplay).1, hids, hlisted, hnext, hfired⟩

end WindowedRun

end StreamSql
