/-
  Tumbling and sliding windows, folded record by record and all at once.

  * `AlignedWindows.enterAll_rows`: what windows are open after a record has come;
  * `Caught`: the windows that hold an arrival are open or have fired, depending on whether
    their end was reached, and have all arrivals that fall into them;
  * `enter_caught`, `settle_caught`: an arrival and the closing of windows keep this;
  * `play_eq_offline`: after a history and a final trigger, every window that an arrival falls
    into has made one batch of the records in it, and these batches come in the order of
    the beginnings of the windows.
-/
import Mathlib.Data.List.Forall2
import StreamSql.Proofs.Sound
import StreamSql.Proofs.Grid

namespace StreamSql

/-! ## Rows of open windows -/

/-- The rows are in the order of the beginnings of the windows. -/
def Ascending (rows : List (Int64 × Nat)) : Prop :=
  rows.Pairwise fun a b => a.1 < b.1

theorem Ascending.eq_of_fst {rows : List (Int64 × Nat)} (h : Ascending rows) {a b : Int64 × Nat}
    (ha : a ∈ rows) (hb : b ∈ rows) (he : a.1 = b.1) : a = b := by
  refine List.inj_on_of_nodup_map (f := Prod.fst) ?_ ha hb he
  rw [List.Nodup, List.pairwise_map]
  exact h.imp Int64.ne_of_lt

theorem place_ascending {rows : List (Int64 × Nat)} (h : Ascending rows) {start : Int64}
    (hn : start ∉ rows.map Prod.fst) (id : Nat) : Ascending (OpenStarts.place start id rows) := by
  induction rows with
  | nil => exact List.pairwise_singleton ..
  | cons row rest ih =>
    obtain ⟨hrow, hrest⟩ := List.pairwise_cons.1 h
    rw [List.map_cons, List.mem_cons, not_or] at hn
    rw [OpenStarts.place]
    split
    · next hlt =>
      refine List.pairwise_cons.2 ⟨fun b hb => ?_, h⟩
      rcases List.mem_cons.1 hb with rfl | hb
      · exact hlt
      · exact Int64.lt_trans hlt (hrow b hb)
    · next hge =>
      refine List.pairwise_cons.2 ⟨fun b hb => ?_, ih hrest hn.2⟩
      rcases List.mem_cons.1 ((OpenWindows.perm_place start id rest).mem_iff.1 hb) with rfl | hb
      · exact Int64.lt_of_le_of_ne (Int64.not_lt.1 hge) (Ne.symm hn.1)
      · exact hrow b hb

theorem find?_eq_none {start : Int64} {rows : List (Int64 × Nat)}
    (h : OpenStarts.find? start rows = none) : start ∉ rows.map Prod.fst := by
  induction rows with
  | nil => exact List.not_mem_nil
  | cons row rest ih =>
    rw [OpenStarts.find?] at h
    split at h
    · cases h
    · next hne =>
      rw [List.map_cons, List.mem_cons, not_or]
      exact ⟨Ne.symm hne, ih h⟩

namespace AlignedWindows

/-- What windows are open once the windows at some beginnings have been entered. -/
structure Entered (w : AlignedWindows) (starts : List Int64) (windows : List Window)
    (w' : AlignedWindows) : Prop where
  grid : w'.grid = w.grid
  ascending : Ascending w'.starts.rows
  next_le : w.starts.next ≤ w'.starts.next
  kept : ∀ row ∈ w.starts.rows, row ∈ w'.starts.rows
  fresh : ∀ row ∈ w'.starts.rows, row ∈ w.starts.rows ∨
    row.1 ∈ starts ∧ w.starts.next ≤ row.2
  windows : List.Forall₂ (fun start v => (start, v.id) ∈ w'.starts.rows ∧
    v.bounds = w.grid.bounds start) starts windows

theorem enterAll_rows (starts : List Int64) (w : AlignedWindows) (h : Ascending w.starts.rows) :
    w.Entered starts (w.enterAll starts).1 (w.enterAll starts).2 := by
  induction starts generalizing w with
  | nil => exact ⟨rfl, h, Nat.le_refl _, fun _ hr => hr, fun _ hr => Or.inl hr, .nil⟩
  | cons start rest ih =>
    cases hf : OpenStarts.find? start w.starts.rows with
    | some id =>
      have ih := ih w h
      rw [enterAll, OpenStarts.enter, hf]
      refine ⟨ih.grid, ih.ascending, ih.next_le, ih.kept, fun row hr => ?_,
        .cons ⟨ih.kept _ (OpenWindows.mem_of_find? hf), congrArg (Grid.bounds · start) ih.grid⟩
          ih.windows⟩
      exact (ih.fresh row hr).imp_right fun hr => ⟨List.mem_cons_of_mem _ hr.1, hr.2⟩
    | none =>
      obtain ⟨t, he, hrows, hnext⟩ := OpenWindows.enter_of_none hf
      have ht : Ascending t.rows := hrows ▸ place_ascending h (find?_eq_none hf) _
      have hperm := hrows ▸ OpenWindows.perm_place start w.starts.next w.starts.rows
      have ih := ih { w with starts := t } ht
      rw [enterAll, he]
      have hmem : (start, w.starts.next) ∈ t.rows := hperm.mem_iff.2 List.mem_cons_self
      refine ⟨ih.grid, ih.ascending, ?_, fun row hr => ?_, fun row hr => ?_,
        .cons ⟨ih.kept _ hmem, congrArg (Grid.bounds · start) ih.grid⟩ ih.windows⟩
      · exact Nat.le_trans (Nat.le_of_lt (Nat.lt_of_lt_of_eq (Nat.lt_succ_self _) hnext.symm))
          ih.next_le
      · exact ih.kept row (hperm.mem_iff.2 (List.mem_cons_of_mem _ hr))
      · rcases ih.fresh row hr with hr | ⟨hr, hle⟩
        · rcases List.mem_cons.1 (hperm.mem_iff.1 hr) with rfl | hr
          · exact Or.inr ⟨List.mem_cons_self, Nat.le_refl _⟩
          · exact Or.inl hr
        · refine Or.inr ⟨List.mem_cons_of_mem _ hr, Nat.le_trans ?_ hle⟩
          exact Nat.le_of_lt (Nat.lt_of_lt_of_eq (Nat.lt_succ_self _) hnext.symm)

/-- A row counts among the windows entered if it begins at one of the beginnings. -/
theorem Entered.count_id {w w' : AlignedWindows} {starts : List Int64} {windows : List Window}
    (h : w.Entered starts windows w') (hn : (w'.starts.rows.map Prod.snd).Nodup)
    {row : Int64 × Nat} (hr : row ∈ w'.starts.rows) :
    (windows.map Window.id).count row.2 = starts.count row.1 := by
  have hw := h.windows
  have hasc := h.ascending
  clear h
  induction hw with
  | nil => rfl
  | @cons start v starts windows hv _ ih =>
    have hiff : v.id = row.2 ↔ start = row.1 :=
      ⟨fun he => congrArg Prod.fst (List.inj_on_of_nodup_map hn hv.1 hr he),
        fun he => congrArg Prod.snd (hasc.eq_of_fst hv.1 hr he)⟩
    rw [List.map_cons, List.count_cons, List.count_cons, ih]
    simp only [beq_iff_eq, hiff]

theorem Entered.exists_window {w w' : AlignedWindows} {starts : List Int64}
    {windows : List Window} (h : w.Entered starts windows w') {start : Int64} (hs : start ∈ starts) :
    ∃ v ∈ windows, (start, v.id) ∈ w'.starts.rows ∧ v.bounds = w.grid.bounds start := by
  have hw := h.windows
  clear h
  induction hw with
  | nil => cases hs
  | cons hv _ ih =>
    rcases List.mem_cons.1 hs with rfl | hs
    · exact ⟨_, List.mem_cons_self, hv⟩
    · obtain ⟨v, hmem, hv⟩ := ih hs
      exact ⟨v, List.mem_cons_of_mem _ hmem, hv⟩

end AlignedWindows

/-! ## Windows with their arrivals -/

/-- The arrivals that fall into the window that begins at `start`. -/
def Grid.inWindow (g : Grid) (start : Int64) (past : List Arrival) : List Arrival :=
  past.filter fun a => g.Holds start a.time

/-- The bounds of a window that fired, and its arrivals. -/
def Firing.content (f : Firing) : Bounds × List Arrival :=
  (f.window.bounds, f.arrivals)

/-- The windows that hold an arrival are open or have fired, those that `Passed` says; they have
    all arrivals that fall into them, and have fired in the order of their beginnings. -/
structure Caught (g : Grid) (past : List Arrival) (Passed : Int64 → Prop) (firings : List Firing)
    (w : AlignedWindows) (l : Ledger) : Prop where
  windows : l.windows = .aligned w
  grid : w.grid = g
  sound : l.Sound
  ascending : Ascending w.starts.rows
  opened : ∀ start, start ∈ w.starts.rows.map Prod.fst ↔
    (∃ a ∈ past, g.Holds start a.time) ∧ ¬ Passed start
  content : ∀ row ∈ w.starts.rows, l.content row.2 = g.inWindow row.1 past
  closed : ∃ starts : List Int64, starts.Pairwise (· < ·) ∧
    (∀ start, start ∈ starts ↔ (∃ a ∈ past, g.Holds start a.time) ∧ Passed start) ∧
    firings.map Firing.content = starts.map fun start => (g.bounds start, g.inWindow start past)

namespace Caught

variable {g : Grid} {past : List Arrival} {Passed : Int64 → Prop} {firings : List Firing}
  {w : AlignedWindows} {l : Ledger}

theorem inWindow_concat (start : Int64) (a : Arrival) :
    g.inWindow start (past ++ [a]) =
      g.inWindow start past ++ if g.Holds start a.time then [a] else [] := by
  by_cases h : g.Holds start a.time <;> simp [Grid.inWindow, h]

theorem exists_concat {start : Int64} {a : Arrival} :
    (∃ b ∈ past ++ [a], g.Holds start b.time) ↔
      (∃ b ∈ past, g.Holds start b.time) ∨ g.Holds start a.time := by
  simp [or_and_right, exists_or]

/-- A window without a row has no arrivals yet, unless it was closed. -/
theorem inWindow_eq_nil (h : Caught g past Passed firings w l) {start : Int64}
    (hs : start ∉ w.starts.rows.map Prod.fst) (hp : ¬ Passed start) : g.inWindow start past = [] := by
  refine List.filter_eq_nil_iff.2 fun b hb hholds => hs ((h.opened start).2 ⟨⟨b, hb, ?_⟩, hp⟩)
  exact of_decide_eq_true hholds

theorem sound_enterAll (h : Caught g past Passed firings w l) (starts : List Int64) {l' : Ledger}
    (hw : l'.windows = .aligned (w.enterAll starts).2) (hcontent : l'.content = l.content) :
    l'.Sound := by
  obtain ⟨opened, hassign⟩ := OpenWindows.enterAll_assigning starts w
  have hsound := h.sound
  have hkept := (w.enterAll_rows starts h.ascending).kept
  refine ⟨?_, fun id hid => ?_⟩
  · rw [hw]
    exact hassign.numbered (h.windows ▸ hsound.numbered)
  · rw [hcontent]
    refine hsound.outside id fun hi => hid ?_
    rw [h.windows] at hi
    obtain ⟨row, hr, rfl⟩ := List.mem_map.1 hi
    rw [hw]
    exact List.mem_map_of_mem (hkept row hr)

/-- **An arrival** comes into all windows that it falls into, if none of them has fired. -/
theorem enter (h : Caught g past Passed firings w l) {a : Arrival} (ha : g.Exact a.time)
    (hopen : ∀ start, g.Holds start a.time → ¬ Passed start) {l' : Ledger}
    (hw : l'.windows = .aligned (w.enterAll (g.starts a.time)).2)
    (hcontent : l'.content = l.content) :
    Caught g (past ++ [a]) Passed firings (w.enterAll (g.starts a.time)).2
      (l'.enter a (w.enterAll (g.starts a.time)).1) := by
  have he := w.enterAll_rows (g.starts a.time) h.ascending
  have hsound := h.sound_enterAll (g.starts a.time) hw hcontent
  obtain ⟨opened, hassign⟩ := OpenWindows.enterAll_assigning (g.starts a.time) w
  refine ⟨hw, he.grid.trans h.grid, Ledger.enter_sound hsound a (hw ▸ hassign.assigned),
    he.ascending, fun start => ?_, fun row hr => ?_, ?_⟩
  · rw [exists_concat]
    constructor
    · intro hs
      obtain ⟨row, hr, rfl⟩ := List.mem_map.1 hs
      rcases he.fresh row hr with hold | ⟨hnew, -⟩
      · obtain ⟨hex, hp⟩ := (h.opened row.1).1 (List.mem_map_of_mem hold)
        exact ⟨Or.inl hex, hp⟩
      · have hholds := (Grid.mem_starts ha row.1).1 hnew
        exact ⟨Or.inr hholds, hopen row.1 hholds⟩
    · rintro ⟨hex | hholds, hp⟩
      · obtain ⟨row, hr, rfl⟩ := List.mem_map.1 ((h.opened start).2 ⟨hex, hp⟩)
        exact List.mem_map_of_mem (he.kept row hr)
      · obtain ⟨v, -, hv, -⟩ := he.exists_window ((Grid.mem_starts ha start).2 hholds)
        exact List.mem_map.2 ⟨_, hv, rfl⟩
  · have hnodup : ((w.enterAll (g.starts a.time)).2.starts.rows.map Prod.snd).Nodup := by
      have := hsound.numbered.nodup
      rwa [hw] at this
    have hold : l.content row.2 = g.inWindow row.1 past := by
      by_cases hr' : row ∈ w.starts.rows
      · exact h.content row hr'
      · obtain ⟨hnew, hle⟩ := (he.fresh row hr).resolve_left hr'
        have hp := hopen row.1 ((Grid.mem_starts ha row.1).1 hnew)
        rw [h.inWindow_eq_nil (fun hs => hr' ?_) hp]
        · refine h.sound.outside row.2 fun hi => ?_
          have := h.sound.numbered.lt_next row.2 hi
          rw [h.windows] at this
          exact Nat.not_lt.2 hle this
        · obtain ⟨row', hmem, he'⟩ := List.mem_map.1 hs
          rwa [← he.ascending.eq_of_fst (he.kept row' hmem) hr he']
    show l'.content row.2 ++ List.replicate _ a = _
    rw [hcontent, hold, he.count_id hnodup hr, inWindow_concat]
    congr 1
    have hstarts : (g.starts a.time).Nodup := (Grid.starts_sorted ha).imp Int64.ne_of_lt
    by_cases hholds : g.Holds row.1 a.time
    · rw [List.count_eq_one_of_mem hstarts ((Grid.mem_starts ha row.1).2 hholds), if_pos hholds]
      rfl
    · rw [List.count_eq_zero.2 fun hm => hholds ((Grid.mem_starts ha row.1).1 hm), if_neg hholds]
      rfl
  · obtain ⟨starts, hsorted, hmem, hfirings⟩ := h.closed
    refine ⟨starts, hsorted, fun start => ?_, hfirings.trans (List.map_congr_left fun start hs => ?_)⟩
    · rw [hmem, exists_concat]
      exact ⟨fun hs => ⟨Or.inl hs.1, hs.2⟩,
        fun hs => ⟨hs.1.resolve_right fun hholds => hopen start hholds hs.2, hs.2⟩⟩
    · rw [inWindow_concat, if_neg fun hholds => hopen start hholds ((hmem start).1 hs).2,
        List.append_nil]

theorem inWindow_ne_nil (h : Caught g past Passed firings w l) {row : Int64 × Nat}
    (hr : row ∈ w.starts.rows) : g.inWindow row.1 past ≠ [] := by
  obtain ⟨⟨b, hb, hholds⟩, -⟩ := (h.opened row.1).1 (List.mem_map_of_mem hr)
  exact List.ne_nil_of_mem (List.mem_filter.2 ⟨hb, decide_eq_true hholds⟩)

/-- Rows that are closed make firings of the arrivals in their windows. -/
theorem content_fire (h : Caught g past Passed firings w l) (due : Int64 → Bool) {l' : Ledger}
    (hcontent : l'.content = l.content) (hn : ((w.closeWhere due).1.map Window.id).Nodup) :
    (l'.fire (w.closeWhere due).1).1.map Firing.content =
      ((w.starts.rows.filter fun row => due row.1).map Prod.fst).map
        fun start => (g.bounds start, g.inWindow start past) := by
  have hocc : l'.occupied (w.closeWhere due).1 = (w.closeWhere due).1 := by
    refine List.filter_eq_self.2 fun v hv => ?_
    obtain ⟨row, hr, rfl⟩ := List.mem_map.1 hv
    have hr := List.mem_of_mem_filter hr
    rw [hcontent, show (w.window row).id = row.2 from rfl, h.content row hr]
    simpa using h.inWindow_ne_nil hr
  rw [(Ledger.fire_eq hn).1, hocc, List.map_map, AlignedWindows.closeWhere, List.map_map,
    List.map_map]
  refine List.map_congr_left fun row hr => ?_
  show (w.grid.bounds row.1, l'.content row.2) = _
  rw [hcontent, h.content row (List.mem_of_mem_filter hr), h.grid]
  rfl

/-- **Windows that are closed** fire with their arrivals. -/
theorem settle (h : Caught g past Passed firings w l) {due : Int64 → Bool}
    {Passed' : Int64 → Prop} (hdue : ∀ start, due start = true ↔ Passed' start)
    (hmono : ∀ start, Passed start → Passed' start)
    (horder : ∀ a b, Passed a → ¬ Passed b → a < b) :
    Caught g past Passed'
      (firings ++ (l.settle ((w.closeWhere due).1, .aligned (w.closeWhere due).2)).1)
      (w.closeWhere due).2
      (l.settle ((w.closeWhere due).1, .aligned (w.closeWhere due).2)).2 := by
  have hclosing := OpenWindows.aligned_closing w due
  have hnodup := h.sound.numbered.nodup
  rw [h.windows] at hnodup
  obtain ⟨hn, -, hdisj⟩ := List.nodup_append.1 (hclosing.perm.nodup_iff.1 hnodup)
  obtain ⟨-, hkeep⟩ := Ledger.fire_eq
    (l := { l with windows := .aligned (w.closeWhere due).2 }) hn
  have hrows : ∀ row, row ∈ (w.closeWhere due).2.starts.rows ↔
      row ∈ w.starts.rows ∧ ¬ Passed' row.1 := fun row => by
    rw [← hdue]
    simp [AlignedWindows.closeWhere]
  refine ⟨Ledger.settle_windows .., h.grid, Ledger.closing_sound h.sound (h.windows ▸ hclosing),
    h.ascending.filter _, fun start => ?_, fun row hr => ?_, ?_⟩
  · constructor
    · intro hs
      obtain ⟨row, hr, rfl⟩ := List.mem_map.1 hs
      obtain ⟨hr, hp⟩ := (hrows row).1 hr
      exact ⟨((h.opened row.1).1 (List.mem_map_of_mem hr)).1, hp⟩
    · rintro ⟨hex, hp⟩
      obtain ⟨row, hr, rfl⟩ := List.mem_map.1
        ((h.opened start).2 ⟨hex, fun hp' => hp (hmono start hp')⟩)
      exact List.mem_map_of_mem ((hrows row).2 ⟨hr, hp⟩)
  · refine (hkeep row.2).trans ((if_neg fun hi => ?_).trans (h.content row ((hrows row).1 hr).1))
    exact hdisj row.2 hi row.2 (List.mem_map_of_mem hr) rfl
  · obtain ⟨starts, hsorted, hmem, hfirings⟩ := h.closed
    have hfst : ∀ start, start ∈ (w.starts.rows.filter fun row => due row.1).map Prod.fst ↔
        start ∈ w.starts.rows.map Prod.fst ∧ Passed' start := fun start => by
      rw [← hdue]
      constructor
      · intro hs
        obtain ⟨row, hr, rfl⟩ := List.mem_map.1 hs
        exact ⟨List.mem_map_of_mem (List.mem_filter.1 hr).1, (List.mem_filter.1 hr).2⟩
      · rintro ⟨hs, hp⟩
        obtain ⟨row, hr, rfl⟩ := List.mem_map.1 hs
        exact List.mem_map_of_mem (List.mem_filter.2 ⟨hr, hp⟩)
    refine ⟨starts ++ (w.starts.rows.filter fun row => due row.1).map Prod.fst,
      List.pairwise_append.2 ⟨hsorted, List.pairwise_map.2 (h.ascending.filter _), ?_⟩,
      fun start => ?_, ?_⟩
    · intro a ha b hb
      exact horder a b ((hmem a).1 ha).2 ((h.opened b).1 ((hfst b).1 hb).1).2
    · rw [List.mem_append, hmem, hfst, h.opened]
      constructor
      · rintro (⟨hex, hp⟩ | ⟨⟨hex, -⟩, hp⟩)
        · exact ⟨hex, hmono start hp⟩
        · exact ⟨hex, hp⟩
      · rintro ⟨hex, hp⟩
        by_cases hp' : Passed start
        · exact Or.inl ⟨hex, hp'⟩
        · exact Or.inr ⟨⟨hex, hp'⟩, hp⟩
    · rw [List.map_append, List.map_append, hfirings]
      exact congrArg _ (h.content_fire due rfl hn)

end Caught

/-! ## Windows whose end is reached -/

/-- The end of the window that begins at `start` is reached by the horizon. -/
def Grid.Passed (g : Grid) (horizon : Option Int64) (start : Int64) : Prop :=
  ∃ now, horizon = some now ∧ start.toInt + g.length ≤ now.toInt

theorem Grid.lt_of_passed {g : Grid} {horizon : Option Int64} {a b : Int64}
    (ha : g.Passed horizon a) (hb : ¬ g.Passed horizon b) : a < b := by
  obtain ⟨now, hnow, hle⟩ := ha
  have hlt : ¬ b.toInt + g.length ≤ now.toInt := fun hle' => hb ⟨now, hnow, hle'⟩
  rw [Int64.lt_iff_toInt_lt]
  omega

theorem Grid.passed_after {g : Grid} {p : Plan} {lateness : Int64} (d : Dial) (e : Event)
    {start : Int64} (h : g.Passed (d.horizon p lateness) start) :
    g.Passed ((d.after p e).horizon p lateness) start := by
  obtain ⟨now, hnow, hle⟩ := h
  obtain ⟨later, hlater, hnow'⟩ := d.horizon_le_after e hnow
  exact ⟨later, hlater, Int.le_trans hle hnow'⟩

namespace Caught

variable {g : Grid} {past : List Arrival} {firings : List Firing} {w : AlignedWindows}
  {l : Ledger} {j : Job}

theorem congr {Passed Passed' : Int64 → Prop} (h : Caught g past Passed firings w l)
    (hp : ∀ start, Passed start ↔ Passed' start) : Caught g past Passed' firings w l :=
  funext (fun start => propext (hp start)) ▸ h

/-- **The windows whose end is reached** fire, given what was reached before. -/
theorem fireDue {before : Option Int64} (h : Caught g past (g.Passed before) firings w l)
    (hmono : ∀ start, g.Passed before start →
      g.Passed (l.dial.horizon j.plan j.lateness) start)
    (hreach : ∀ now, l.dial.horizon j.plan j.lateness = some now → g.Reaches now) :
    ∃ w', Caught g past (g.Passed (l.dial.horizon j.plan j.lateness))
      (firings ++ (l.fireDue j).1) w' (l.fireDue j).2 := by
  unfold Ledger.fireDue
  cases hh : l.dial.horizon j.plan j.lateness with
  | none =>
    rw [hh] at hmono
    have hnone : ∀ start, ¬ g.Passed before start := fun start hp => by
      obtain ⟨now, hnow, -⟩ := hmono start hp
      cases hnow
    refine ⟨w, ?_⟩
    rw [show l.settle (l.windows.closeHorizon none) = ([], l) from rfl, List.append_nil]
    exact h.congr fun start => ⟨fun hp => absurd hp (hnone start), fun ⟨_, hnow, _⟩ => nomatch hnow⟩
  | some now =>
    rw [hh] at hmono hreach
    have hw : l.windows.closeDue now = ((w.closeWhere (· < w.grid.cutoff now)).1,
        .aligned (w.closeWhere (· < w.grid.cutoff now)).2) := by
      rw [h.windows]
      rfl
    have hdue : ∀ start, decide (start < w.grid.cutoff now) = true ↔ g.Passed (some now) start :=
      fun start => by
        rw [decide_eq_true_iff, h.grid, Grid.lt_cutoff_iff (hreach now rfl)]
        exact ⟨fun hle => ⟨now, rfl, hle⟩, fun ⟨_, hnow, hle⟩ => Option.some.inj hnow ▸ hle⟩
    have hsettle := h.settle hdue hmono fun _ _ => Grid.lt_of_passed
    rw [← hw] at hsettle
    exact ⟨_, hsettle⟩

/-- The windows of an arrival that is not late are not passed by the watermark. -/
theorem not_passed_of_not_late {l : Ledger} {starts : List Int64} {windows : List Window}
    {w w' : AlignedWindows} (he : w.Entered starts windows w') (hw : l.windows = .aligned w')
    (hl : (l.noteLate j windows).late = l.late) {time : Int64} (ht : w.grid.Exact time)
    {start : Int64} (hs : start ∈ starts) (hholds : w.grid.Holds start time) :
    ¬ w.grid.Passed (l.dial.watermark j.lateness) start := by
  rintro ⟨mark, hmark, hle⟩
  obtain ⟨v, hv, -, hbounds⟩ := he.exists_window hs
  have hlate : l.isLate j windows = true := by
    rw [Ledger.isLate, hmark, hw]
    refine List.any_eq_true.2 ⟨v, hv, decide_eq_true ?_⟩
    rw [hbounds, Int64.le_iff_toInt_le]
    exact Int.le_trans (Int.le_of_eq (Grid.toInt_after ht hholds)) hle
  rw [Ledger.noteLate, if_pos hlate] at hl
  exact Nat.succ_ne_self _ hl

/-- The windows of an arrival are not passed by the horizon, unless it is late. -/
theorem not_passed {now : Int64} {record : Record} {l' : Ledger} {windows : List Window}
    {w w' : AlignedWindows} (he : w.Entered (w.grid.starts (l.arrivalOf j now record).time) windows w')
    (hw : l'.windows = .aligned w') (hd : l'.dial = l.dial.after j.plan (.arrival now record))
    (hl : j.plan.timestamp.isSome → (l'.noteLate j windows).late = l'.late)
    (ht : w.grid.Exact (l.arrivalOf j now record).time) {start : Int64}
    (hholds : w.grid.Holds start (l.arrivalOf j now record).time) :
    ¬ w.grid.Passed (l'.dial.horizon j.plan j.lateness) start := by
  unfold Dial.horizon
  split
  · next hp =>
    exact not_passed_of_not_late he hw (hl hp) ht ((Grid.mem_starts ht start).2 hholds) hholds
  · next hp =>
    rintro ⟨_, hnow, hle⟩
    have htime : (l.arrivalOf j now record).time = l'.dial.latestClock := by
      rw [Bool.not_eq_true, Option.isSome_eq_false_iff, Option.isNone_iff_eq_none] at hp
      rw [Ledger.arrivalOf, Dial.timeOf, Plan.eventTime?, hp, hd]
      rfl
    obtain rfl := Option.some.inj hnow
    rw [← htime] at hle
    have := hholds.2.2
    omega

/-- **A record** that is not late. -/
theorem arrive {now : Int64} {record : Record}
    (h : Caught g past (g.Passed (l.dial.horizon j.plan j.lateness)) firings w l)
    (ht : g.Exact (l.arrivalOf j now record).time)
    (hreach : ∀ reached, (l.dial.after j.plan (.arrival now record)).horizon j.plan j.lateness =
      some reached → g.Reaches reached)
    (hl : j.plan.timestamp.isSome → (l.arrive j now record).2.late = l.late) :
    ∃ w', Caught g (past ++ [l.arrivalOf j now record])
      (g.Passed ((l.arrive j now record).2.dial.horizon j.plan j.lateness))
      (firings ++ (l.arrive j now record).1) w' (l.arrive j now record).2 := by
  obtain rfl := h.grid
  generalize ha : l.arrivalOf j now record = a at ht
  have he := w.enterAll_rows (w.grid.starts a.time) h.ascending
  let l₁ : Ledger := { l.dated j now record with
    windows := .aligned (w.enterAll (w.grid.starts a.time)).2 }
  have harrive : l.arrive j now record =
      ((l₁.noteLate j (w.enterAll (w.grid.starts a.time)).1).enter a
        (w.enterAll (w.grid.starts a.time)).1).fireDue j := by
    rw [Ledger.arrive, ha, h.windows]
    exact Ledger.accept_aligned ..
  rw [harrive] at hl ⊢
  rw [Ledger.fireDue_late] at hl
  have hopen : ∀ start, w.grid.Holds start a.time →
      ¬ w.grid.Passed (l₁.dial.horizon j.plan j.lateness) start := fun start hholds => by
    subst ha
    exact not_passed he rfl rfl hl ht hholds
  have henter := h.enter ht (fun start hholds hp => hopen start hholds (Grid.passed_after _ _ hp))
    (Ledger.noteLate_windows j l₁ (w.enterAll (w.grid.starts a.time)).1)
    (Ledger.noteLate_content j l₁ _)
  have hdial : ((l₁.noteLate j (w.enterAll (w.grid.starts a.time)).1).enter a
      (w.enterAll (w.grid.starts a.time)).1).dial = l.dial.after j.plan (.arrival now record) :=
    Ledger.noteLate_dial j l₁ _
  rw [Ledger.fireDue_dial]
  exact henter.fireDue (fun start hp => hdial ▸ Grid.passed_after _ _ hp) (hdial ▸ hreach)

/-- **One event** that leaves the closing of windows to their ends. -/
theorem step (h : Caught g past (g.Passed (l.dial.horizon j.plan j.lateness)) firings w l)
    {e : Event} (hq : e.isQuiet = true) (ht : ∀ a ∈ arrivals j.plan l.dial [e], g.Exact a.time)
    (hreach : ∀ now, (l.dial.after j.plan e).horizon j.plan j.lateness = some now → g.Reaches now)
    (hl : j.plan.timestamp.isSome → (l.step j e).2.late = l.late) :
    ∃ w', Caught g (past ++ arrivals j.plan l.dial [e])
      (g.Passed ((l.step j e).2.dial.horizon j.plan j.lateness))
      (firings ++ (l.step j e).1) w' (l.step j e).2 := by
  cases e with
  | arrival now record => exact h.arrive (ht _ List.mem_cons_self) hreach hl
  | poll now =>
    have hd : Caught g past (g.Passed (l.dial.horizon j.plan j.lateness)) firings w
        { l with dial := l.dial.after j.plan (.poll now) } :=
      { h with sound := ⟨h.sound.numbered, h.sound.outside⟩ }
    rw [Ledger.step_dial]
    obtain ⟨w', h'⟩ := hd.fireDue (fun start hp => Grid.passed_after _ _ hp) hreach
    exact ⟨w', by rw [show arrivals j.plan l.dial [.poll now] = [] from rfl, List.append_nil]; exact h'⟩
  | trigger => cases hq
  | discard => cases hq

/-- **A history** of such events. -/
theorem play (events : List Event)
    (h : Caught g past (g.Passed (l.dial.horizon j.plan j.lateness)) firings w l)
    (hq : ∀ e ∈ events, e.isQuiet = true)
    (ht : ∀ a ∈ arrivals j.plan l.dial events, g.Exact a.time)
    (hreach : ∀ now ∈ horizons j.plan j.lateness l.dial events, g.Reaches now)
    (hl : j.plan.timestamp.isSome → (l.play j events).2.late = l.late) :
    ∃ w', Caught g (past ++ arrivals j.plan l.dial events)
      (g.Passed ((l.play j events).2.dial.horizon j.plan j.lateness))
      (firings ++ (l.play j events).1) w' (l.play j events).2 := by
  induction events generalizing past firings w l with
  | nil => exact ⟨w, by rw [arrivals, List.append_nil]; exact (List.append_nil firings).symm ▸ h⟩
  | cons e rest ih =>
    have hstep : l.late ≤ (l.step j e).2.late := Ledger.late_le_step ..
    have hrest : (l.step j e).2.late ≤ (l.play j (e :: rest)).2.late := Ledger.late_le_play ..
    rw [arrivals_cons] at ht
    rw [horizons_cons] at hreach
    obtain ⟨w', h'⟩ := h.step (hq e List.mem_cons_self)
      (fun a ha => ht a (List.mem_append_left _ ha))
      (fun now hnow => hreach now (List.mem_append_left _ (by rw [hnow]; exact List.mem_cons_self)))
      (fun hp => Nat.le_antisymm (hl hp ▸ hrest) hstep)
    rw [← Ledger.step_dial] at ht hreach
    obtain ⟨w'', h''⟩ := ih h' (fun e he => hq e (List.mem_cons_of_mem _ he))
      (fun a ha => ht a (List.mem_append_right _ ha))
      (fun now hnow => hreach now (List.mem_append_right _ hnow))
      (fun hp => Nat.le_antisymm (hl hp ▸ hstep) (Ledger.late_le_play ..))
    refine ⟨w'', ?_⟩
    rw [arrivals_cons, ← List.append_assoc, Ledger.play, ← List.append_assoc, ← Ledger.step_dial]
    exact h''

end Caught

/-! ## Whole histories -/

namespace Grid

variable (g : Grid)

/-- The window number `k`. -/
def windowAt (k : Int) : Bounds :=
  ⟨Word.nearest (k * g.stride), Word.nearest (k * g.stride + g.length)⟩

/-- The records that fall into window number `k`, in the order in which they arrived. -/
def recordsIn (k : Int) (past : List Arrival) : List Record :=
  (past.filter fun a => g.Covers k a.time).map Arrival.record

/-- The number of the window that begins at `start`. -/
def number (start : Int64) : Int := start.toInt / g.stride

variable {g} {start time : Int64}

theorem Holds.number_mul (h : g.Holds start time) : g.number start * g.stride = start.toInt :=
  Int.ediv_mul_cancel h.1

theorem Holds.windowAt (h : g.Holds start time) : g.windowAt (g.number start) = g.bounds start := by
  rw [Grid.windowAt, h.number_mul, Word.nearest_toInt]
  rfl

theorem Holds.recordsIn (h : g.Holds start time) (past : List Arrival) :
    g.recordsIn (g.number start) past = (g.inWindow start past).map Arrival.record := by
  unfold Grid.recordsIn inWindow
  congr 1
  refine List.filter_congr fun a _ => decide_eq_decide.2 ?_
  rw [Covers, h.number_mul]
  exact ⟨fun hc => ⟨h.1, hc⟩, fun hh => hh.2⟩

end Grid

/-- All windows that are open fire at the end. -/
theorem Caught.trigger {g : Grid} {past : List Arrival} {horizon : Option Int64}
    {firings : List Firing} {w : AlignedWindows} {l : Ledger}
    (h : Caught g past (g.Passed horizon) firings w l) :
    ∃ starts : List Int64, starts.Pairwise (· < ·) ∧
      (∀ start, start ∈ starts ↔ ∃ a ∈ past, g.Holds start a.time) ∧
      (firings ++ (l.settle l.windows.closeAll).1).map Firing.content =
        starts.map fun start => (g.bounds start, g.inWindow start past) := by
  have hw : l.windows.closeAll =
      ((w.closeWhere fun _ => true).1, .aligned (w.closeWhere fun _ => true).2) := by
    rw [h.windows]
    rfl
  obtain ⟨starts, hsorted, hmem, hfirings⟩ := (h.settle
    (fun _ => (iff_of_true rfl trivial : true = true ↔ True)) (fun _ _ => trivial)
    fun _ _ => Grid.lt_of_passed).closed
  refine ⟨starts, hsorted, fun start => (hmem start).trans (and_iff_left trivial), ?_⟩
  rw [hw]
  exact hfirings

/-- **Streaming is grouping.**  A history of records, polls and changes of the clock succeeds,
    whatever the plan.  Where no operation on its times saturates and no record is late, the
    batches that it and a final trigger make are those of the windows of the grid into which
    a record falls, in the order of the windows, and each is made of the records in the
    window as if they had come all at once. -/
theorem play_eq_offline {p : Plan} {config : Config} {accs : List Accumulator}
    (hp : p.newAccumulators = .ok accs) {spec : WindowSpec} {g : Grid}
    (hg : (OpenWindows.ofSpec spec).grid? = some g) {events : List Event}
    (hq : ∀ e ∈ events, e.isQuiet = true) (ht : ∀ a ∈ arrivals p {} events, g.Exact a.time)
    (hh : ∀ now ∈ horizons p config.lateness {} events, g.Reaches now) :
    ∃ batches r, (WindowedRun.start p spec config).play (events ++ [.trigger]) = .ok (batches, r) ∧
      ((p.timestamp.isSome → r.late = 0) →
        ∃ numbers : List Int, numbers.Pairwise (· < ·) ∧
          (∀ k, k ∈ numbers ↔ ∃ a ∈ arrivals p {} events, g.Covers k a.time) ∧
          batches = numbers.map fun k => p.batchOf config.substitute accs (g.windowAt k)
            (g.recordsIn k (arrivals p {} events))) := by
  let j : Job := ⟨p, config.substitute, config.lateness, accs, hp⟩
  let l : Ledger := { windows := .ofSpec spec }
  obtain ⟨r, hplay, hr⟩ := WindowedRun.play_follows (events ++ [.trigger])
    (WindowedRun.start_follows spec config j rfl rfl)
  refine ⟨_, r, hplay, fun hlate => ?_⟩
  have hl : (l.play j events).2.late ≤ r.late := by
    rw [hr.late, Ledger.play_append]
    exact Ledger.late_le_play ..
  obtain ⟨w, hw, hwg, hrows⟩ : ∃ w, OpenWindows.ofSpec spec = .aligned w ∧ w.grid = g ∧
      w.starts.rows = [] := by
    cases spec with
    | tumbling size => exact ⟨_, rfl, Option.some.inj hg, rfl⟩
    | sliding size slide => exact ⟨_, rfl, Option.some.inj hg, rfl⟩
    | counting => cases hg
    | session => cases hg
  have hstart : Caught g [] (g.Passed (l.dial.horizon p config.lateness)) [] w l := by
    refine ⟨hw, hwg, Ledger.ofSpec_sound spec, ?_, ?_, ?_, [], .nil, ?_, rfl⟩
    · rw [hrows]
      exact .nil
    · simp [hrows]
    · simp [hrows]
    · simp
  obtain ⟨w', h⟩ := hstart.play (j := j) events hq ht hh
    (fun hs => Nat.eq_zero_of_le_zero (hlate hs ▸ hl))
  obtain ⟨starts, hsorted, hmem, hfirings⟩ := h.trigger
  have hholds : ∀ start ∈ starts, ∃ a ∈ arrivals p {} events, g.Holds start a.time :=
    fun start hs => (hmem start).1 hs
  refine ⟨starts.map g.number, ?_, fun k => ?_, ?_⟩
  · rw [List.pairwise_map]
    refine hsorted.imp_of_mem fun {a b} ha hb hlt => ?_
    obtain ⟨_, -, ha⟩ := hholds a ha
    obtain ⟨_, -, hb⟩ := hholds b hb
    rw [Int64.lt_iff_toInt_lt, ← ha.number_mul, ← hb.number_mul] at hlt
    exact Int.lt_of_mul_lt_mul_right hlt (Int.le_of_lt g.stride_pos)
  · rw [List.mem_map]
    constructor
    · rintro ⟨start, hs, rfl⟩
      obtain ⟨a, ha, hh⟩ := hholds start hs
      refine ⟨a, ha, ?_⟩
      rw [Grid.Covers, hh.number_mul]
      exact hh.2
    · rintro ⟨a, ha, hc⟩
      obtain ⟨start, hs, hh⟩ := (Grid.covers_iff_holds (ht a ha) k).1 hc
      refine ⟨start, (hmem start).2 ⟨a, ha, hh⟩, ?_⟩
      rw [Grid.number, hs]
      exact Int.mul_ediv_cancel _ (Int.ne_of_gt g.stride_pos)
  · have hbatches : ∀ firings, j.batches firings = (firings.map Firing.content).map fun c =>
        p.batchOf config.substitute accs c.1 (c.2.map Arrival.record) := fun firings => by
      rw [List.map_map]
      rfl
    have hall : (l.play j (events ++ [.trigger])).1 =
        (l.play j events).1 ++ ((l.play j events).2.settle (l.play j events).2.windows.closeAll).1 := by
      rw [Ledger.play_append]
      exact congrArg _ (List.append_nil _)
    rw [hbatches, hall]
    refine (congrArg _ hfirings).trans ?_
    rw [List.map_map, List.map_map]
    refine List.map_congr_left fun start hs => ?_
    obtain ⟨_, -, hh⟩ := hholds start hs
    show p.batchOf _ _ (g.bounds start) ((g.inWindow start _).map _) = p.batchOf _ _ _ _
    rw [hh.windowAt, hh.recordsIn]
    rfl

/-- The three records fall into two windows of 5 milliseconds, and none is late. -/
theorem play_eq_offline_disordered :
    ∃ batches r, (WindowedRun.start .collectIds (.tumbling ⟨5000000⟩) {}).play
        (Event.disordered ++ [.trigger]) = .ok (batches, r) ∧
      ∃ numbers : List Int, numbers.Pairwise (· < ·) ∧
        (∀ k, k ∈ numbers ↔ ∃ a ∈ arrivals .collectIds {} Event.disordered,
          (Grid.tumbling (.ofDuration ⟨5000000⟩)).Covers k a.time) ∧
        batches = numbers.map fun k => Plan.collectIds.batchOf .null [.collect []]
          ((Grid.tumbling (.ofDuration ⟨5000000⟩)).windowAt k)
          ((Grid.tumbling (.ofDuration ⟨5000000⟩)).recordsIn k
            (arrivals .collectIds {} Event.disordered)) := by
  have hlength : (Grid.tumbling (.ofDuration ⟨5000000⟩)).length = 5 := by decide +kernel
  have hstride : (Grid.tumbling (.ofDuration ⟨5000000⟩)).stride = 5 := hlength
  have htimes : (arrivals .collectIds {} Event.disordered).map Arrival.time = [3, 7, 5] := by
    decide +kernel
  have hhorizons : horizons .collectIds 0 {} Event.disordered = [3, 3, 7, 7] := by decide +kernel
  have hlate : ((WindowedRun.start .collectIds (.tumbling ⟨5000000⟩) {}).play
      (Event.disordered ++ [.trigger])).toOption.map (fun y => y.2.late) = some 0 := by
    decide +kernel
  have ht : ∀ a ∈ arrivals .collectIds {} Event.disordered,
      (Grid.tumbling (.ofDuration ⟨5000000⟩)).Exact a.time := fun a ha => by
    have hsmall : ∀ time ∈ [3, 7, (5 : Int64)], 3 ≤ time.toInt ∧ time.toInt ≤ 7 := by
      simp only [List.forall_mem_cons]
      exact ⟨by decide, by decide, by decide, nofun⟩
    have htime := hsmall a.time (htimes ▸ List.mem_map_of_mem ha)
    refine ⟨trivial, fun k hk => ?_⟩
    rw [Grid.Covers, hlength, hstride] at hk
    rw [hlength, hstride, Word.least, Word.greatest]
    omega
  have hh : ∀ now ∈ horizons .collectIds 0 {} Event.disordered,
      (Grid.tumbling (.ofDuration ⟨5000000⟩)).Reaches now := fun now hnow => by
    have hsmall : ∀ time ∈ [3, 3, 7, (7 : Int64)], 3 ≤ time.toInt := by
      simp only [List.forall_mem_cons]
      exact ⟨by decide, by decide, by decide, by decide, nofun⟩
    have hnow := hsmall now (hhorizons ▸ hnow)
    rw [Grid.Reaches, hlength, Word.least]
    omega
  obtain ⟨batches, r, hplay, h⟩ := @play_eq_offline .collectIds {} [.collect []] rfl
    (.tumbling ⟨5000000⟩) _ rfl Event.disordered (by decide) ht hh
  rw [hplay] at hlate
  exact ⟨batches, r, hplay, h fun _ => Option.some.inj hlate⟩

end StreamSql
