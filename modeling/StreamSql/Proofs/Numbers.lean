/-
  The numbers of the windows that are open.

  Every window has a number of its own (`Numbered`).  Windows close in four ways, and a window
  that closes is not open any more while the others stay open (`Closing`).  A record is
  assigned to windows that stay open, and a window that it opens has a new number
  (`Assigning`).  All this needs that the groups of the windows are listed in their order.
-/
import Mathlib.Data.List.Nodup
import Mathlib.Data.List.Perm.Basic
import Mathlib.Tactic.Common
import StreamSql.Proofs.Listing

namespace StreamSql

namespace OpenWindows

/-- The numbers of the windows that have not been taken. -/
def ids : OpenWindows → List Nat
  | aligned w => w.starts.rows.map Prod.snd
  | counting w => w.ready.map Window.id ++ w.opened.map fun row => row.2.id
  | session w => w.opened.map fun row => row.2.id

/-- The number of the next window. -/
def next : OpenWindows → Nat
  | aligned w => w.starts.next
  | counting w => w.next
  | session w => w.next

/-- The grid of the windows, if they have one. -/
def grid? : OpenWindows → Option Grid
  | aligned w => some w.grid
  | _ => none

/-- Every window has a number of its own, which is not to be given again. -/
structure Numbered (w : OpenWindows) : Prop where
  nodup : w.ids.Nodup
  lt_next : ∀ id ∈ w.ids, id < w.next
  inOrder : w.InOrder

theorem ofSpec_ids (spec : WindowSpec) : (ofSpec spec).ids = [] := by
  cases spec <;> rfl

theorem ofSpec_numbered (spec : WindowSpec) : (ofSpec spec).Numbered :=
  ⟨by simp [ofSpec_ids], by simp [ofSpec_ids], ofSpec_inOrder spec⟩

/-! ## Windows that close -/

/-- Some windows close, and the others stay open. -/
structure Closing (w : OpenWindows) (c : List Window × OpenWindows) : Prop where
  perm : w.ids.Perm (c.1.map Window.id ++ c.2.ids)
  next : c.2.next = w.next
  grid : c.2.grid? = w.grid?
  inOrder : c.2.InOrder

theorem perm_filter_map {α : Type} (f : α → Nat) (due : α → Bool) (rows : List α) :
    (rows.map f).Perm ((rows.filter due).map f ++ (rows.filter fun row => !due row).map f) := by
  rw [← List.map_append]
  exact ((List.filter_append_perm due rows).map f).symm

theorem takeReady_closing {w : OpenWindows} (h : w.InOrder) : w.Closing w.takeReady := by
  refine ⟨?_, ?_, ?_, takeReady_inOrder h⟩
  · cases w <;> exact List.Perm.refl _
  all_goals cases w <;> rfl

theorem aligned_closing (w : AlignedWindows) (due : Int64 → Bool) :
    (aligned w).Closing ((w.closeWhere due).1, aligned (w.closeWhere due).2) := by
  refine ⟨?_, rfl, rfl, trivial⟩
  simp only [AlignedWindows.closeWhere, ids, List.map_map]
  exact perm_filter_map Prod.snd (fun row => due row.1) w.starts.rows

theorem session_closing {w : SessionWindows} (h : (session w).InOrder) (due : Session → Bool) :
    (session w).Closing ((w.closeWhere due).1, session (w.closeWhere due).2) := by
  rw [SessionWindows.closeWhere_eq h]
  refine ⟨?_, rfl, rfl, Groups.InOrder.filter h _⟩
  simp only [ids, List.map_map]
  exact perm_filter_map (fun row => row.2.id) (fun row => due row.2) w.opened

theorem closeDue_closing {w : OpenWindows} (h : w.InOrder) (now : Int64) :
    w.Closing (w.closeDue now) := by
  cases w with
  | aligned w => exact aligned_closing w fun start => start < w.grid.cutoff now
  | counting w => exact ⟨List.Perm.refl _, rfl, rfl, h⟩
  | session w => exact session_closing h fun s => s.stop w.gap ≤ now

/-- The windows whose end a horizon has reached; none if there is no horizon. -/
def closeHorizon (w : OpenWindows) : Option Int64 → List Window × OpenWindows
  | none => ([], w)
  | some horizon => w.closeDue horizon

theorem closeHorizon_inOrder {w : OpenWindows} (h : w.InOrder) (horizon : Option Int64) :
    (w.closeHorizon horizon).2.InOrder := by
  cases horizon with
  | none => exact h
  | some now => exact closeDue_inOrder h now

theorem closeHorizon_closing {w : OpenWindows} (h : w.InOrder) (horizon : Option Int64) :
    w.Closing (w.closeHorizon horizon) := by
  cases horizon with
  | none => exact ⟨List.Perm.refl _, rfl, rfl, h⟩
  | some horizon => exact closeDue_closing h horizon

theorem closeAll_closing {w : OpenWindows} (h : w.InOrder) : w.Closing w.closeAll := by
  cases w with
  | aligned w => exact aligned_closing w fun _ => true
  | counting w =>
    rw [closeAll, CountingWindows.closeAll_eq h]
    refine ⟨?_, rfl, rfl, Groups.inOrder_nil⟩
    simp [ids, Function.comp_def, Tally.window]
  | session w => exact session_closing h fun _ => true

theorem closeAll_ids {w : OpenWindows} (h : w.InOrder) : w.closeAll.2.ids = [] := by
  cases w with
  | aligned w => simp [closeAll, AlignedWindows.closeAll, AlignedWindows.closeWhere, ids]
  | counting w => simp [closeAll, CountingWindows.closeAll_eq h, ids]
  | session w => simp [closeAll, SessionWindows.closeAll, SessionWindows.closeWhere_eq h, ids]

/-! ## Windows that take a record -/

/-- Some windows close, a record is assigned to windows that are open afterwards, and those
    that it opens have new numbers. -/
structure Assigning (w : OpenWindows) (c : Assignment × OpenWindows) (kept opened : List Nat) :
    Prop where
  closed : w.ids.Perm (c.1.closed.map Window.id ++ kept)
  perm : c.2.ids.Perm (kept ++ opened)
  next_le : w.next ≤ c.2.next
  nodup : opened.Nodup
  fresh : ∀ id ∈ opened, w.next ≤ id ∧ id < c.2.next
  entered : ∀ id ∈ opened, id ∈ c.1.windows.map Window.id
  assigned : ∀ id ∈ c.1.windows.map Window.id, id ∈ c.2.ids
  grid : c.2.grid? = w.grid?
  inOrder : c.2.InOrder

/-- Windows that only close. -/
theorem Closing.assigning {w : OpenWindows} {c : List Window × OpenWindows} (h : w.Closing c) :
    w.Assigning (⟨[], c.1⟩, c.2) c.2.ids [] where
  closed := h.perm
  perm := by rw [List.append_nil]
  next_le := Nat.le_of_eq h.next.symm
  nodup := List.nodup_nil
  fresh := fun _ hid => absurd hid List.not_mem_nil
  entered := fun _ hid => absurd hid List.not_mem_nil
  assigned := fun _ hid => absurd hid List.not_mem_nil
  grid := h.grid
  inOrder := h.inOrder

theorem Assigning.numbered {w : OpenWindows} {c : Assignment × OpenWindows}
    {kept opened : List Nat} (h : w.Assigning c kept opened) (hw : w.Numbered) :
    c.2.Numbered := by
  obtain ⟨-, hkept, -⟩ := List.nodup_append.1 (h.closed.nodup_iff.1 hw.nodup)
  have hlt : ∀ id ∈ kept, id < w.next := fun id hid =>
    hw.lt_next id (h.closed.mem_iff.2 (List.mem_append_right _ hid))
  refine ⟨h.perm.nodup_iff.2 (List.nodup_append.2 ⟨hkept, h.nodup, ?_⟩), fun id hid => ?_,
    h.inOrder⟩
  · rintro id hid _ hid' rfl
    exact absurd (hlt id hid) (Nat.not_lt.2 (h.fresh id hid').1)
  · rcases List.mem_append.1 (h.perm.mem_iff.1 hid) with hid | hid
    · exact Nat.lt_of_lt_of_le (hlt id hid) h.next_le
    · exact (h.fresh id hid).2

theorem perm_place (start : Int64) (id : Nat) (rows : List (Int64 × Nat)) :
    (OpenStarts.place start id rows).Perm ((start, id) :: rows) := by
  induction rows with
  | nil => exact List.Perm.refl _
  | cons row rest ih =>
    rw [OpenStarts.place]
    split
    · exact List.Perm.refl _
    · exact (ih.cons row).trans (List.Perm.swap ..)

theorem mem_of_find? {start : Int64} {id : Nat} {rows : List (Int64 × Nat)}
    (h : OpenStarts.find? start rows = some id) : (start, id) ∈ rows := by
  induction rows with
  | nil => cases h
  | cons row rest ih =>
    rw [OpenStarts.find?] at h
    split at h
    · next hs => obtain rfl := Option.some.inj h; exact hs ▸ List.mem_cons_self
    · exact List.mem_cons_of_mem _ (ih h)

/-- A window that is not open gets the next number. -/
theorem enter_of_none {t : OpenStarts} {start : Int64}
    (h : OpenStarts.find? start t.rows = none) :
    ∃ t', t.enter start = (t.next, t') ∧ t'.rows = OpenStarts.place start t.next t.rows ∧
      t'.next = t.next + 1 :=
  ⟨_, by rw [OpenStarts.enter, h], rfl, rfl⟩

/-- The windows at some beginnings, one after the other. -/
theorem enterAll_assigning (starts : List Int64) (w : AlignedWindows) :
    ∃ opened, (aligned w).Assigning (⟨(w.enterAll starts).1, []⟩, aligned (w.enterAll starts).2)
      (w.starts.rows.map Prod.snd) opened := by
  induction starts generalizing w with
  | nil =>
    refine ⟨[], List.Perm.refl _, ?_, Nat.le_refl _, List.nodup_nil, ?_, ?_, ?_, rfl, trivial⟩
    · rw [List.append_nil]
      exact List.Perm.refl _
    all_goals exact fun _ h => absurd h List.not_mem_nil
  | cons start rest ih =>
    cases hf : OpenStarts.find? start w.starts.rows with
    | some id =>
      obtain ⟨opened, h⟩ := ih w
      have hid : id ∈ w.starts.rows.map Prod.snd := List.mem_map_of_mem (mem_of_find? hf)
      refine ⟨opened, ?_⟩
      rw [AlignedWindows.enterAll, OpenStarts.enter, hf]
      refine { h with entered := fun i hi => ?_, assigned := fun i hi => ?_ }
      · exact List.mem_cons_of_mem _ (h.entered i hi)
      · rcases List.mem_cons.1 hi with rfl | hi
        · exact h.perm.mem_iff.2 (List.mem_append_left _ hid)
        · exact h.assigned i hi
    | none =>
      obtain ⟨t, he, hrows, hnext⟩ := enter_of_none hf
      obtain ⟨opened, h⟩ := ih { w with starts := t }
      rw [AlignedWindows.enterAll, he]
      have hrows' := hrows ▸ perm_place start w.starts.next w.starts.rows
      have hperm := h.perm.trans
        (((hrows'.map Prod.snd).append_right opened).trans List.perm_middle.symm)
      have hle := Nat.le_trans (Nat.le_of_eq hnext.symm) h.next_le
      have hfresh : ∀ i ∈ opened, w.starts.next + 1 ≤ i ∧ i < _ := fun i hi =>
        ⟨Nat.le_trans (Nat.le_of_eq hnext.symm) (h.fresh i hi).1, (h.fresh i hi).2⟩
      refine ⟨w.starts.next :: opened, List.Perm.refl _, hperm, Nat.le_of_succ_le hle, ?_,
        fun i hi => ?_, fun i hi => ?_, fun i hi => ?_, h.grid, trivial⟩
      · exact List.nodup_cons.2 ⟨fun hm => Nat.not_succ_le_self _ (hfresh _ hm).1, h.nodup⟩
      · rcases List.mem_cons.1 hi with rfl | hi
        · exact ⟨Nat.le_refl _, hle⟩
        · exact ⟨Nat.le_of_succ_le (hfresh i hi).1, (hfresh i hi).2⟩
      · rcases List.mem_cons.1 hi with rfl | hi
        · exact List.mem_cons_self
        · exact List.mem_cons_of_mem _ (h.entered i hi)
      · rcases List.mem_cons.1 hi with rfl | hi
        · exact hperm.mem_iff.2 (List.mem_append_right _ List.mem_cons_self)
        · exact h.assigned i hi

/-! ## The grid -/

theorem takeReady_grid (w : OpenWindows) : w.takeReady.2.grid? = w.grid? := by
  cases w <;> rfl

theorem closeHorizon_grid (w : OpenWindows) (horizon : Option Int64) :
    (w.closeHorizon horizon).2.grid? = w.grid? := by
  cases horizon <;> cases w <;> rfl

theorem closeAll_grid (w : OpenWindows) : w.closeAll.2.grid? = w.grid? := by
  cases w <;> rfl

theorem assign_grid (w : OpenWindows) (time : Int64) (key : GroupKey) :
    (w.assign time key).2.grid? = w.grid? := by
  cases w with
  | aligned w => exact (enterAll_assigning (w.grid.starts time) w).choose_spec.grid
  | counting w => rfl
  | session w => rfl

/-! ## One window for each record -/

variable {w : OpenWindows} {c : Assignment × OpenWindows} {kept : List Nat}

theorem assigning_known (hc : w.ids.Perm (c.1.closed.map Window.id ++ kept))
    (hp : c.2.ids.Perm kept) (hn : c.2.next = w.next) (hg : c.2.grid? = w.grid?)
    (ho : c.2.InOrder) {id : Nat} (hw : c.1.windows.map Window.id = [id]) (hid : id ∈ kept) :
    w.Assigning c kept [] where
  closed := hc
  perm := by rwa [List.append_nil]
  next_le := Nat.le_of_eq hn.symm
  nodup := List.nodup_nil
  fresh := fun _ h => absurd h List.not_mem_nil
  entered := fun _ h => absurd h List.not_mem_nil
  assigned := fun i hi => by
    rw [hw, List.mem_singleton] at hi
    exact hp.mem_iff.2 (hi ▸ hid)
  grid := hg
  inOrder := ho

theorem assigning_new (hc : w.ids.Perm (c.1.closed.map Window.id ++ kept))
    (hp : c.2.ids.Perm (kept ++ [w.next])) (hn : c.2.next = w.next + 1)
    (hg : c.2.grid? = w.grid?) (ho : c.2.InOrder) (hw : c.1.windows.map Window.id = [w.next]) :
    w.Assigning c kept [w.next] where
  closed := hc
  perm := hp
  next_le := by rw [hn]; exact Nat.le_succ _
  nodup := List.nodup_singleton _
  fresh := fun i hi => by
    rw [List.mem_singleton.1 hi, hn]
    exact ⟨Nat.le_refl _, Nat.lt_succ_self _⟩
  entered := fun i hi => by rwa [hw]
  assigned := fun i hi => by
    rw [hw] at hi
    exact hp.mem_iff.2 (List.mem_append_right _ hi)
  grid := hg
  inOrder := ho

/-- A record counts in the open window of its group, or in a new one. -/
theorem counting_assigning {w : CountingWindows} (h : (counting w).InOrder) (time : Int64)
    (key : GroupKey) :
    ∃ id opened, (w.assign time key).1.windows.map Window.id = [id] ∧
      (counting w).Assigning ((w.assign time key).1, counting (w.assign time key).2)
        (counting w).ids opened := by
  have ho : (counting (w.assign time key).2).InOrder :=
    CountingWindows.assign_inOrder h time key
  cases hg : w.opened.get? key with
  | some t =>
    have hp := (Groups.perm_erase hg).map Tally.id
    have hi := (Groups.perm_insert hg (t.add time)).map Tally.id
    simp only [List.map_map, List.map_cons] at hp hi
    rw [CountingWindows.assign_of_some hg] at ho ⊢
    refine ⟨t.id, [], rfl, assigning_known (List.Perm.refl _) ?_ ?_ ?_ ho rfl
      (List.mem_append_right _ (hp.mem_iff.2 List.mem_cons_self))⟩
    · simp only
      split
      · simp only [ids, List.map_append, List.append_assoc]
        exact hp.symm.append_left _
      · exact (hi.trans hp.symm).append_left _
    all_goals
      simp only
      split <;> rfl
  | none =>
    rw [CountingWindows.assign_of_none hg] at ho ⊢
    refine ⟨w.next, _, rfl, assigning_new (List.Perm.refl _) ?_ ?_ ?_ ho rfl⟩
    · simp only
      split
      · simp only [ids, List.map_append, List.append_assoc]
        exact List.perm_append_comm.append_left _
      · simp only [ids, Groups.insert_of_get?_eq_none _ _ hg, List.map_append, List.append_assoc]
        exact List.Perm.refl _
    all_goals
      simp only
      split <;> rfl

/-- A session that is past its end closes. -/
theorem expire_perm (w : SessionWindows) (time : Int64) (key : GroupKey) :
    (session w).ids.Perm ((w.expire time key).1.map Window.id ++
      (session (w.expire time key).2).ids) ∧ (w.expire time key).2.next = w.next := by
  unfold SessionWindows.expire
  cases hg : w.opened.get? key with
  | none => exact ⟨List.Perm.refl _, rfl⟩
  | some s =>
    simp only
    split
    · have hp := (Groups.perm_erase hg).map Session.id
      simp only [List.map_map, List.map_cons] at hp
      exact ⟨hp, rfl⟩
    · exact ⟨List.Perm.refl _, rfl⟩

/-- A record joins the open session of its group, or a new one. -/
theorem session_assigning {w : SessionWindows} (h : (session w).InOrder) (time : Int64)
    (key : GroupKey) :
    ∃ id opened, (w.assign time key).1.windows.map Window.id = [id] ∧
      (session w).Assigning ((w.assign time key).1, session (w.assign time key).2)
        (session (w.expire time key).2).ids opened := by
  have ho : (session (w.assign time key).2).InOrder := SessionWindows.assign_inOrder h time key
  have hgrid : (session (w.assign time key).2).grid? = (session w).grid? := rfl
  obtain ⟨hc, hn⟩ := expire_perm w time key
  unfold SessionWindows.assign at ho hgrid ⊢
  generalize w.expire time key = expired at hc hn ho hgrid
  obtain ⟨closed, v⟩ := expired
  simp only at ho hgrid ⊢
  cases hg : v.opened.get? key with
  | some s =>
    have hp := (Groups.perm_erase hg).map Session.id
    have hi := (Groups.perm_insert hg (s.extend time)).map Session.id
    simp only [List.map_map, List.map_cons] at hp hi
    rw [SessionWindows.join_of_some hg] at ho hgrid ⊢
    exact ⟨s.id, [], rfl, assigning_known hc (hi.trans hp.symm) hn hgrid ho rfl
      (hp.mem_iff.2 List.mem_cons_self)⟩
  | none =>
    rw [SessionWindows.join_of_none hg] at ho hgrid ⊢
    refine ⟨w.next, _, congrArg (fun n => [n]) hn, assigning_new hc ?_ (congrArg (· + 1) hn) hgrid
      ho (congrArg (fun n => [n]) hn)⟩
    simp only [ids, next, Groups.insert_of_get?_eq_none _ _ hg, List.map_append, ← hn]
    exact List.Perm.refl _

/-- A record always leaves the windows in good order. -/
theorem assign_assigning {w : OpenWindows} (h : w.InOrder) (time : Int64) (key : GroupKey) :
    ∃ kept opened, w.Assigning (w.assign time key) kept opened := by
  cases w with
  | aligned w => exact ⟨_, enterAll_assigning (w.grid.starts time) w⟩
  | counting w =>
    obtain ⟨_, opened, -, hassigning⟩ := counting_assigning h time key
    exact ⟨_, opened, hassigning⟩
  | session w =>
    obtain ⟨_, opened, -, hassigning⟩ := session_assigning h time key
    exact ⟨_, opened, hassigning⟩

/-- Where windows do not slide, **a record is assigned to one window**. -/
theorem assign_single {w : OpenWindows} (hs : ∀ size slide, w.grid? ≠ some (.sliding size slide))
    (time : Int64) (key : GroupKey) :
    ∃ id, (w.assign time key).1.windows.map Window.id = [id] := by
  cases w with
  | aligned w =>
    cases hg : w.grid with
    | tumbling size =>
      refine ⟨(w.starts.enter (size.multiple (size.index time))).1, ?_⟩
      simp only [assign, AlignedWindows.assign, hg, Grid.starts]
      rfl
    | sliding size slide => exact absurd (congrArg some hg) (hs size slide)
  | counting w =>
    cases hg : w.opened.get? key with
    | some t => exact ⟨_, by rw [assign, CountingWindows.assign_of_some hg]; rfl⟩
    | none => exact ⟨_, by rw [assign, CountingWindows.assign_of_none hg]; rfl⟩
  | session w =>
    obtain ⟨s, hjoin⟩ := (w.expire time key).2.exists_join time key
    exact ⟨s.id, congrArg (fun joined => joined.1.map Window.id) hjoin⟩

end OpenWindows

end StreamSql
