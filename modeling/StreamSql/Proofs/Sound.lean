/-
  Ledgers in good order.

  * `Ledger.fire_eq`: windows that fire hand over all they have;
  * `Ledger.Sound`: only open windows have arrivals; `Ledger.Filled`: all of them have some;
  * `step_sound`, `step_filled`: every event keeps both, and `accept_windows` says which windows
    fire when a record comes.
-/
import StreamSql.Proofs.Ledger

namespace StreamSql

namespace Ledger

variable {j : Job} {l : Ledger}

/-! ## What fires -/

/-- The windows among these that have arrivals. -/
def occupied (l : Ledger) (windows : List Window) : List Window :=
  windows.filter fun w => !(l.content w.id).isEmpty

theorem fireOne_of_nil {w : Window} (h : l.content w.id = []) : l.fireOne w = ([], l) := by
  rw [fireOne, h]

theorem fireOne_of_ne_nil {w : Window} (h : l.content w.id ≠ []) :
    l.fireOne w = ([⟨w, l.content w.id⟩],
      { l with
        content := fun id => if id = w.id then [] else l.content id
        fired := l.fired + 1 }) := by
  rw [fireOne]
  split
  · next he => exact absurd he h
  · rfl

theorem fireOne_content (w : Window) (id : Nat) :
    (l.fireOne w).2.content id = if id = w.id then [] else l.content id := by
  by_cases h : l.content w.id = []
  · rw [fireOne_of_nil h]
    split
    · next hid => rw [hid, h]
    · rfl
  · rw [fireOne_of_ne_nil h]

/-- **Windows that fire** hand over their arrivals, and have none afterwards. -/
theorem fire_eq {windows : List Window} (hn : (windows.map Window.id).Nodup) :
    (l.fire windows).1 = (l.occupied windows).map (fun w => ⟨w, l.content w.id⟩) ∧
      ∀ id, (l.fire windows).2.content id =
        if id ∈ windows.map Window.id then [] else l.content id := by
  induction windows generalizing l with
  | nil => exact ⟨rfl, fun id => by simp [fire]⟩
  | cons w rest ih =>
    obtain ⟨hw, hrest⟩ := List.nodup_cons.1 hn
    obtain ⟨hfire, hcontent⟩ := ih (l := (l.fireOne w).2) hrest
    -- the windows behind `w` are other windows, so they keep their arrivals
    have hkeep : ∀ v ∈ rest, (l.fireOne w).2.content v.id = l.content v.id := fun v hv => by
      rw [fireOne_content, if_neg fun he => hw (List.mem_map.2 ⟨v, hv, he⟩)]
    have hocc : (l.fireOne w).2.occupied rest = l.occupied rest :=
      List.filter_congr fun v hv => by rw [hkeep v hv]
    have hmap : ((l.fireOne w).2.occupied rest).map
        (fun v => (⟨v, (l.fireOne w).2.content v.id⟩ : Firing)) =
          (l.occupied rest).map fun v => ⟨v, l.content v.id⟩ := by
      rw [hocc]
      exact List.map_congr_left fun v hv => by rw [hkeep v (List.mem_filter.1 hv).1]
    refine ⟨?_, fun id => ?_⟩
    · rw [fire, hfire, hmap]
      by_cases hc : l.content w.id = []
      · simp [fireOne_of_nil hc, occupied, hc]
      · simp [fireOne_of_ne_nil hc, occupied, hc]
    · rw [fire, hcontent, fireOne_content]
      by_cases hid : id = w.id <;> simp [hid]

/-! ## Ledgers in good order -/

/-- The windows are in good order, and only they have arrivals. -/
structure Sound (l : Ledger) : Prop where
  numbered : l.windows.Numbered
  outside : ∀ id, id ∉ l.windows.ids → l.content id = []

/-- Every window has arrivals. -/
def Filled (l : Ledger) : Prop :=
  ∀ id ∈ l.windows.ids, l.content id ≠ []

section

variable (h : l.Sound) {c : Assignment × OpenWindows} {kept opened : List Nat}
  (hc : l.windows.Assigning c kept opened)

include h hc

theorem closed_nodup : (c.1.closed.map Window.id).Nodup :=
  (List.nodup_append.1 (hc.closed.nodup_iff.1 h.numbered.nodup)).1

/-- Windows that stay open keep their arrivals. -/
theorem settle_kept {id : Nat} (hid : id ∈ kept) :
    (l.settle (c.1.closed, c.2)).2.content id = l.content id := by
  obtain ⟨hn, -, hdisj⟩ := List.nodup_append.1 (hc.closed.nodup_iff.1 h.numbered.nodup)
  exact ((fire_eq hn).2 id).trans (if_neg fun hi => hdisj id hi id hid rfl)

/-- Windows that were opened have no arrivals yet. -/
theorem settle_opened {id : Nat} (hid : id ∈ opened) :
    (l.settle (c.1.closed, c.2)).2.content id = [] := by
  have hout : l.content id = [] := h.outside id fun hi =>
    Nat.lt_irrefl _ (Nat.lt_of_lt_of_le (h.numbered.lt_next id hi) (hc.fresh id hid).1)
  refine ((fire_eq (closed_nodup h hc)).2 id).trans ?_
  rw [hout, ite_self]

theorem settle_sound : (l.settle (c.1.closed, c.2)).2.Sound := by
  refine ⟨?_, fun id hid => ?_⟩
  · rw [settle_windows]
    exact hc.numbered h.numbered
  · rw [settle_windows] at hid
    refine ((fire_eq (closed_nodup h hc)).2 id).trans
      (ite_eq_left_iff.2 fun hclosed => h.outside id fun hi => ?_)
    rcases List.mem_append.1 (hc.closed.mem_iff.1 hi) with hi | hi
    · exact hclosed hi
    · exact hid (hc.perm.mem_iff.2 (List.mem_append_left _ hi))

/-- All windows that close fire. -/
theorem settle_fires (hf : l.Filled) :
    (l.settle (c.1.closed, c.2)).1.map Firing.window = c.1.closed := by
  have hocc : ({ l with windows := c.2 } : Ledger).occupied c.1.closed = c.1.closed :=
    List.filter_eq_self.2 fun w hw => by
      have hid := hc.closed.mem_iff.2 (List.mem_append_left _ (List.mem_map_of_mem hw))
      simpa using hf w.id hid
  rw [settle, (fire_eq (closed_nodup h hc)).1, hocc, List.map_map]
  exact List.map_id _

end

section

variable (h : l.Sound) {c : List Window × OpenWindows} (hc : l.windows.Closing c)

include h hc

theorem closing_sound : (l.settle c).2.Sound := settle_sound h hc.assigning

theorem closing_filled (hf : l.Filled) : (l.settle c).2.Filled := by
  intro id hid
  rw [settle_windows] at hid
  rw [settle_kept h hc.assigning hid]
  exact hf id (hc.perm.mem_iff.2 (List.mem_append_right _ hid))

theorem closing_fires (hf : l.Filled) : (l.settle c).1.map Firing.window = c.1 :=
  settle_fires h hc.assigning hf

end

/-! ## Arrivals -/

theorem noteLate_sound (h : l.Sound) (windows : List Window) : (l.noteLate j windows).Sound := by
  unfold noteLate
  split
  · exact ⟨h.numbered, h.outside⟩
  · exact h

theorem enter_sound (h : l.Sound) (a : Arrival) {windows : List Window}
    (hw : ∀ id ∈ windows.map Window.id, id ∈ l.windows.ids) : (l.enter a windows).Sound :=
  ⟨h.numbered, fun id hid => by
    have hc : (windows.map Window.id).count id = 0 :=
      List.count_eq_zero.2 fun hi => hid (hw id hi)
    show l.content id ++ List.replicate _ a = []
    rw [h.outside id hid, hc]
    rfl⟩

theorem enter_filled (a : Arrival) {windows : List Window}
    (hw : ∀ id ∈ l.windows.ids, l.content id ≠ [] ∨ id ∈ windows.map Window.id) :
    (l.enter a windows).Filled := by
  intro id hid he
  obtain ⟨hc, hr⟩ := List.append_eq_nil_iff.1 he
  rcases hw id hid with h | h
  · exact h hc
  · exact Nat.ne_of_gt (List.count_pos_iff.2 h) ((List.replicate_eq_nil_iff _).1 hr)

section

variable (h : l.Sound) (a : Arrival) {c : Assignment × OpenWindows} {kept opened : List Nat}
  (hc : l.windows.Assigning c kept opened)

include h hc

/-- The ledger once a record is in its windows. -/
theorem entered_sound :
    (((l.settle (c.1.closed, c.2)).2.noteLate j c.1.windows).enter a c.1.windows).Sound := by
  refine enter_sound (noteLate_sound (settle_sound h hc) _) a ?_
  rw [noteLate_windows, settle_windows]
  exact hc.assigned

theorem entered_filled (hf : l.Filled) :
    (((l.settle (c.1.closed, c.2)).2.noteLate j c.1.windows).enter a c.1.windows).Filled := by
  refine enter_filled a fun id hid => ?_
  rw [noteLate_windows, settle_windows] at hid
  rw [noteLate_content]
  rcases List.mem_append.1 (hc.perm.mem_iff.1 hid) with hid | hid
  · rw [settle_kept h hc hid]
    exact Or.inl (hf id (hc.closed.mem_iff.2 (List.mem_append_right _ hid)))
  · exact Or.inr (hc.entered id hid)

theorem full_sound : ((((l.settle (c.1.closed, c.2)).2.noteLate j c.1.windows).enter a
    c.1.windows).fireReady).2.Sound :=
  have hentered := entered_sound (j := j) h a hc
  closing_sound hentered (OpenWindows.takeReady_closing hentered.numbered.inOrder)

theorem accept_sound : (l.accept j a c).2.Sound :=
  have hfull := full_sound (j := j) h a hc
  closing_sound hfull (OpenWindows.closeHorizon_closing hfull.numbered.inOrder _)

theorem full_filled (hf : l.Filled) : ((((l.settle (c.1.closed, c.2)).2.noteLate j
    c.1.windows).enter a c.1.windows).fireReady).2.Filled :=
  have hentered := entered_sound (j := j) h a hc
  closing_filled hentered (OpenWindows.takeReady_closing hentered.numbered.inOrder)
    (entered_filled h a hc hf)

theorem accept_filled (hf : l.Filled) : (l.accept j a c).2.Filled :=
  have hfull := full_sound (j := j) h a hc
  closing_filled hfull (OpenWindows.closeHorizon_closing hfull.numbered.inOrder _)
    (full_filled h a hc hf)

/-- **The windows that a record fires** are those that it ends, those that are full and those
    whose end is reached. -/
theorem accept_fires (hf : l.Filled) :
    (l.accept j a c).1.map Firing.window = c.1.closed ++ c.2.takeReady.1 ++
      (c.2.takeReady.2.closeHorizon (l.dial.horizon j.plan j.lateness)).1 := by
  have hentered := entered_sound (j := j) h a hc
  have hsound := full_sound (j := j) h a hc
  have hended := settle_fires h hc hf
  have hfull := closing_fires hentered
    (OpenWindows.takeReady_closing hentered.numbered.inOrder) (entered_filled h a hc hf)
  have hdue := closing_fires hsound (OpenWindows.closeHorizon_closing hsound.numbered.inOrder
    (l.dial.horizon j.plan j.lateness)) (full_filled h a hc hf)
  simp only [fireReady, settle_windows, enter_windows, noteLate_windows] at hfull hdue
  unfold accept
  simp only [List.map_append, fireReady, fireDue, settle_windows, settle_dial, enter_windows,
    enter_dial, noteLate_windows, noteLate_dial, hended, hfull, hdue]

end

/-! ## Histories -/

theorem step_sound (h : l.Sound) (e : Event) : (l.step j e).2.Sound := by
  cases e with
  | arrival now record =>
    obtain ⟨kept, opened, hc⟩ := OpenWindows.assign_assigning h.numbered.inOrder
      (l.arrivalOf j now record).time (j.plan.groupKey record)
    exact accept_sound (l := l.dated j now record) ⟨h.numbered, h.outside⟩ _ hc
  | poll now =>
    exact closing_sound (l := { l with dial := l.dial.after j.plan (.poll now) })
      ⟨h.numbered, h.outside⟩ (OpenWindows.closeHorizon_closing h.numbered.inOrder _)
  | trigger => exact closing_sound h (OpenWindows.closeAll_closing h.numbered.inOrder)
  | discard =>
    have hclosing := OpenWindows.closeAll_closing h.numbered.inOrder
    exact ⟨hclosing.assigning.numbered h.numbered, fun _ _ => rfl⟩

theorem step_filled (h : l.Sound) (hf : l.Filled) (e : Event) : (l.step j e).2.Filled := by
  cases e with
  | arrival now record =>
    obtain ⟨kept, opened, hc⟩ := OpenWindows.assign_assigning h.numbered.inOrder
      (l.arrivalOf j now record).time (j.plan.groupKey record)
    exact accept_filled (l := l.dated j now record) ⟨h.numbered, h.outside⟩ _ hc hf
  | poll now =>
    exact closing_filled (l := { l with dial := l.dial.after j.plan (.poll now) })
      ⟨h.numbered, h.outside⟩ (OpenWindows.closeHorizon_closing h.numbered.inOrder _) hf
  | trigger => exact closing_filled h (OpenWindows.closeAll_closing h.numbered.inOrder) hf
  | discard =>
    intro id hid
    have hnone := OpenWindows.closeAll_ids h.numbered.inOrder
    exact absurd (hnone ▸ hid) List.not_mem_nil

theorem ofSpec_sound (spec : WindowSpec) : Sound { windows := .ofSpec spec } :=
  ⟨OpenWindows.ofSpec_numbered spec, fun _ _ => rfl⟩

theorem ofSpec_filled (spec : WindowSpec) : Filled { windows := .ofSpec spec } := by
  intro id hid
  rw [show Ledger.windows _ = OpenWindows.ofSpec spec from rfl, OpenWindows.ofSpec_ids] at hid
  cases hid

/-- **Every history** leaves the ledger in good order. -/
theorem play_sound (events : List Event) (h : l.Sound) (hf : l.Filled) :
    (l.play j events).2.Sound ∧ (l.play j events).2.Filled := by
  induction events generalizing l with
  | nil => exact ⟨h, hf⟩
  | cons e rest ih => exact ih (step_sound h e) (step_filled h hf e)

end Ledger

end StreamSql
