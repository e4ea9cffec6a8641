/-
  The windows that a look at the clock closes.

  It is to close exactly the open windows whose end is reached (`OpenWindows.Honours`).  Windows
  of a grid are told by their beginning, which is compared with the time one window ago; this
  time saturates, and so do the ends.

  * `OpenWindows.Closes`: what a look at the clock closes, by the ends of windows
    (`mem_closeDue`);
  * `OpenWindows.Reached`: the windows that are open after any calls;
  * `closeDue_honours_iff`: what is closed, and when it is what it should be.
-/
import StreamSql.Proofs.Overdue
import StreamSql.Proofs.Early

namespace StreamSql

namespace OpenWindows

/-! ## Windows at the ends of the time line -/

variable {w : OpenWindows} {now : Int64} {v : Window}

/-- A window of a grid begins at the least time, and its end is ahead. -/
def Premature (w : OpenWindows) (now : Int64) (v : Window) : Prop :=
  w.grid?.isSome ∧ v.bounds.start = Int64.minValue ∧ now < v.bounds.stop

/-- The time is the greatest one, and the end of the window would be later. -/
def Overlooked (w : OpenWindows) (now : Int64) (v : Window) : Prop :=
  now = Int64.maxValue ∧ ¬ w.Fits v

/-- A look at the clock closes this window. -/
def Closes (w : OpenWindows) (now : Int64) (v : Window) : Prop :=
  v.bounds.stop ≤ now ∧ ¬ w.Overlooked now v ∨ w.Premature now v

theorem fits_aligned {a : AlignedWindows} {row : Int64 × Nat} :
    (aligned a).Fits (a.window row) ↔ row.1.toInt + a.grid.length ≤ Word.greatest := by
  constructor
  · intro h
    exact h a.grid rfl
  · rintro h g ⟨⟩
    exact h

theorem closes_aligned {a : AlignedWindows} {row : Int64 × Nat} :
    (aligned a).Closes now (a.window row) ↔ row.1 < a.grid.cutoff now := by
  rw [Grid.lt_cutoff_iff_of_ends, Closes, Overlooked, fits_aligned, not_le]
  simp only [Premature, grid?, Option.isSome_some, true_and]
  rfl

theorem closes_session {s : SessionWindows} {row : Session} :
    (session s).Closes now (row.window s.gap) ↔ row.stop s.gap ≤ now := by
  have hnot : ¬ (session s).Overlooked now (row.window s.gap) := fun h =>
    h.2 fun g hg => by cases hg
  have hnot' : ¬ (session s).Premature now (row.window s.gap) := fun h => by cases h.1
  rw [Closes, or_iff_left hnot', and_iff_left hnot]
  rfl

/-- The windows of the rows that are due, and those of the others. -/
theorem mem_map_filter_iff {α : Type} {f : α → Window} {due : α → Bool} {P : Window → Prop}
    (h : ∀ a, P (f a) ↔ due a = true) (rows : List α) :
    (v ∈ (rows.filter due).map f ↔ v ∈ rows.map f ∧ P v) ∧
      (v ∈ (rows.filter fun a => !due a).map f ↔ v ∈ rows.map f ∧ ¬ P v) := by
  constructor <;>
  · simp only [List.mem_map, List.mem_filter, Bool.not_eq_true', ← Bool.not_eq_true, ← h]
    constructor
    · rintro ⟨a, ⟨ha, hdue⟩, rfl⟩
      exact ⟨⟨a, ha, rfl⟩, hdue⟩
    · rintro ⟨⟨a, ha, rfl⟩, hdue⟩
      exact ⟨a, ⟨ha, hdue⟩, rfl⟩

/-- What a look at the clock closes, and what it leaves open. -/
theorem mem_closeDue (hl : w.InOrder) (ht : w.isTimeBased = true) (now : Int64) (v : Window) :
    (v ∈ (w.closeDue now).1 ↔ v ∈ w.windows ∧ w.Closes now v) ∧
      (v ∈ (w.closeDue now).2.windows ↔ v ∈ w.windows ∧ ¬ w.Closes now v) := by
  cases w with
  | aligned a =>
    exact mem_map_filter_iff (fun row => closes_aligned.trans decide_eq_true_iff.symm) a.starts.rows
  | counting c => cases ht
  | session s =>
    show (v ∈ (s.closeDue now).1 ↔ _) ∧
      (v ∈ (s.closeDue now).2.opened.map (fun row => row.2.window s.gap) ↔ _)
    rw [SessionWindows.closeDue_eq hl]
    exact mem_map_filter_iff (f := fun row : GroupKey × Session => row.2.window s.gap)
      (fun row => closes_session.trans decide_eq_true_iff.symm) s.opened

/-! ## Calls -/

/-- The windows that are open after calls of a policy. -/
inductive Reached (spec : WindowSpec) : OpenWindows → Prop
  | start : Reached spec (ofSpec spec)
  | assign {w : OpenWindows} (time : Int64) (key : GroupKey) :
      Reached spec w → Reached spec (w.assign time key).2
  | closeDue {w : OpenWindows} (now : Int64) : Reached spec w → Reached spec (w.closeDue now).2
  | closeAll {w : OpenWindows} : Reached spec w → Reached spec w.closeAll.2

variable {spec : WindowSpec}

theorem Reached.numbered (h : Reached spec w) : w.Numbered := by
  induction h with
  | start => exact ofSpec_numbered spec
  | @assign w time key _ ih =>
    obtain ⟨_, _, hc⟩ := assign_assigning ih.inOrder time key
    exact hc.numbered ih
  | @closeDue w now _ ih => exact (closeDue_closing ih.inOrder now).assigning.numbered ih
  | @closeAll w _ ih => exact (closeAll_closing ih.inOrder).assigning.numbered ih

theorem Reached.isTimeBased (h : Reached spec w) :
    w.isTimeBased = (ofSpec spec).isTimeBased := by
  induction h with
  | start => rfl
  | @assign w time key _ ih => rw [assign_isTimeBased, ih]
  | @closeDue w now _ ih => rw [← ih]; exact closeHorizon_isTimeBased w (some now)
  | @closeAll w _ ih => rw [closeAll_isTimeBased, ih]

/-- A look at the clock closes exactly the open windows whose end is reached, each of them once,
    and leaves exactly the others open. -/
structure Honours (w : OpenWindows) (now : Int64) : Prop where
  closed : ∀ v, v ∈ (w.closeDue now).1 ↔ v ∈ w.windows ∧ v.bounds.stop ≤ now
  once : ((w.closeDue now).1.map Window.id).Nodup
  left : ∀ v, v ∈ (w.closeDue now).2.windows ↔ v ∈ w.windows ∧ ¬ v.bounds.stop ≤ now

theorem closes_iff_of_inside (hpremature : ¬ w.Premature now v)
    (hoverlooked : ¬ w.Overlooked now v) : w.Closes now v ↔ v.bounds.stop ≤ now := by
  simp [Closes, hpremature, hoverlooked]

/-- A window at an end of the time line is closed just if its end is not reached. -/
theorem closes_iff_of_outside (h : w.Premature now v ∨ w.Overlooked now v) :
    w.Closes now v ↔ ¬ v.bounds.stop ≤ now := by
  rcases h with hpremature | hoverlooked
  · have hahead := Int64.not_le.2 hpremature.2.2
    simp [Closes, hpremature, hahead]
  · have hreached : v.bounds.stop ≤ now := by
      rw [hoverlooked.1]
      exact Int64.le_maxValue _
    have hnot : ¬ w.Premature now v := fun hp => Int64.not_le.2 hp.2.2 hreached
    simp [Closes, hoverlooked, hreached, hnot]

/-- **A look at the clock closes the windows whose end is reached**, each once, and no others,
    as long as no window of a grid reaches to an end of the time line: one that begins at the
    least time is always closed, and one whose end saturates never. -/
theorem closeDue_honours_iff (h : Reached spec w) (ht : (ofSpec spec).isTimeBased = true)
    (now : Int64) :
    ((w.closeDue now).1.map Window.id).Nodup ∧
      (∀ v, (v ∈ (w.closeDue now).1 ↔ v ∈ w.windows ∧ w.Closes now v) ∧
        (v ∈ (w.closeDue now).2.windows ↔ v ∈ w.windows ∧ ¬ w.Closes now v)) ∧
      (w.Honours now ↔ ∀ v ∈ w.windows, ¬ w.Premature now v ∧ ¬ w.Overlooked now v) := by
  have hl := h.numbered.inOrder
  have hmem := mem_closeDue hl (h.isTimeBased.trans ht) now
  have honce : ((w.closeDue now).1.map Window.id).Nodup :=
    (List.nodup_append.1 ((closeDue_closing hl now).perm.nodup_iff.1 h.numbered.nodup)).1
  refine ⟨honce, hmem, fun hw v hv => ?_, fun hinside => ⟨fun v => ?_, honce, fun v => ?_⟩⟩
  · by_contra hnot
    have hflip := closes_iff_of_outside (not_and_or.1 hnot |>.imp not_not.1 not_not.1)
    have hsame := (hmem v).1.symm.trans (hw.closed v)
    simp only [hv, true_and] at hsame
    exact iff_not_self (hsame.symm.trans hflip)
  · rw [(hmem v).1]
    exact and_congr_right fun hv =>
      closes_iff_of_inside (hinside v hv).1 (hinside v hv).2
  · rw [(hmem v).2]
    exact and_congr_right fun hv =>
      not_congr (closes_iff_of_inside (hinside v hv).1 (hinside v hv).2)

/-- Two windows of 10 ms: the first one of the time line is closed before its end, and the last
    one is left open at its end. -/
theorem closeDue_honours_iff_ends :
    let spec : WindowSpec := .tumbling ⟨10000000⟩
    let first := ((ofSpec spec).assign Int64.minValue (.ofValues [])).2
    let last := ((ofSpec spec).assign Int64.maxValue (.ofValues [])).2
    Reached spec first ∧ Reached spec last ∧
      ¬ first.Honours Int64.minValue ∧ first.Honours 0 ∧ ¬ last.Honours Int64.maxValue := by
  intro spec first last
  have hfirst : Reached spec first := .assign _ _ .start
  have hlast : Reached spec last := .assign _ _ .start
  have hbegin : first.windows = [⟨0, Int64.minValue, -9223372036854775798⟩] := by decide
  have hend : last.windows = [⟨0, 9223372036854775800, Int64.maxValue⟩] := by decide
  have hoverlooked : last.Overlooked Int64.maxValue ⟨0, 9223372036854775800, Int64.maxValue⟩ :=
    ⟨rfl, fun h => absurd (h (.tumbling (.ofDuration ⟨10000000⟩)) rfl) (by decide)⟩
  refine ⟨hfirst, hlast, fun hw => ?_, ?_, fun hw => ?_⟩
  · obtain ⟨-, -, hiff⟩ := closeDue_honours_iff hfirst rfl Int64.minValue
    exact (hiff.1 hw _ (hbegin ▸ List.mem_singleton_self _)).1 ⟨rfl, rfl, by decide⟩
  · obtain ⟨-, -, hiff⟩ := closeDue_honours_iff hfirst rfl 0
    refine hiff.2 fun v hv => ?_
    obtain rfl := List.mem_singleton.1 (hbegin ▸ hv)
    exact ⟨fun h => absurd h.2.2 (by decide), fun h => absurd h.1 (by decide)⟩
  · obtain ⟨-, -, hiff⟩ := closeDue_honours_iff hlast rfl Int64.maxValue
    exact (hiff.1 hw _ (hend ▸ List.mem_singleton_self _)).2 hoverlooked

end OpenWindows

end StreamSql
