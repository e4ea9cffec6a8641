/-
  The balance of a ledger: what arrived is in the open windows or was handed over by a window
  that fired.

  * `settle_balance`, `enter_balance`, `accept_balance`: the arrivals handed over and those held
    afterwards are together those held before, and the new one.

  The balance of an arrival is for windows that do not slide, so that it has one window.
-/
import StreamSql.Proofs.Sound

namespace StreamSql

/-- The arrivals that windows handed over when they fired. -/
def fired (firings : List Firing) : List Arrival :=
  firings.flatMap Firing.arrivals

@[simp]
theorem fired_append (firings more : List Firing) :
    fired (firings ++ more) = fired firings ++ fired more := List.flatMap_append

namespace Ledger

variable {j : Job} {l : Ledger}

/-- What fires are the arrivals of the windows. -/
theorem fired_fire {windows : List Window} (hn : (windows.map Window.id).Nodup) :
    StreamSql.fired (l.fire windows).1 = (windows.map Window.id).flatMap l.content := by
  rw [StreamSql.fired, (fire_eq hn).1, List.flatMap_map, List.flatMap_map, occupied]
  clear hn
  induction windows with
  | nil => rfl
  | cons w rest ih =>
    by_cases hc : l.content w.id = [] <;> simp_all

/-- The arrivals in the windows that are open. -/
def held (l : Ledger) : List Arrival :=
  l.windows.ids.flatMap l.content

/-- **Some windows close**: they hand over what they have, and the others keep theirs. -/
theorem settle_balance (h : l.Sound) {c : Assignment × OpenWindows} {kept opened : List Nat}
    (hc : l.windows.Assigning c kept opened) :
    (StreamSql.fired (l.settle (c.1.closed, c.2)).1 ++
      (l.settle (c.1.closed, c.2)).2.held).Perm l.held := by
  have hheld : (l.settle (c.1.closed, c.2)).2.held.Perm (kept.flatMap l.content) := by
    rw [held, settle_windows]
    refine (hc.perm.flatMap_right _).trans ?_
    rw [List.flatMap_append, List.flatMap_congr fun _ => settle_kept h hc,
      List.flatMap_eq_nil_iff.2 fun _ => settle_opened h hc, List.append_nil]
  refine (hheld.append_left _).trans ?_
  rw [settle, fired_fire (closed_nodup h hc), ← List.flatMap_append]
  exact (hc.closed.flatMap_right _).symm

/-- Nothing changes but that some windows close. -/
theorem closing_balance (h : l.Sound) {c : List Window × OpenWindows}
    (hc : l.windows.Closing c) :
    (StreamSql.fired (l.settle c).1 ++ (l.settle c).2.held).Perm l.held :=
  settle_balance h hc.assigning

/-! ## Arrivals -/

theorem noteLate_held (windows : List Window) : (l.noteLate j windows).held = l.held := by
  unfold noteLate
  split <;> rfl

/-- **An arrival** comes into its window once. -/
theorem enter_balance (h : l.Sound) (a : Arrival) {windows : List Window} {id : Nat}
    (hw : windows.map Window.id = [id]) (hid : id ∈ l.windows.ids) :
    (l.enter a windows).held.Perm (l.held ++ [a]) := by
  refine (List.flatMap_append_perm _ _ _).symm.trans (List.Perm.append_left _ (List.Perm.of_eq ?_))
  obtain ⟨before, after, hsplit⟩ := List.append_of_mem hid
  have hnodup := h.numbered.nodup
  rw [hsplit, List.nodup_middle, List.nodup_cons] at hnodup
  have hnone : ∀ ids : List Nat, id ∉ ids →
      (ids.flatMap fun i => List.replicate (List.count i [id]) a) = [] := fun ids hi => by
    rw [List.flatMap_eq_nil_iff]
    intro i hi'
    rw [List.count_singleton, if_neg, List.replicate_zero]
    rintro he
    exact hi (beq_iff_eq.1 he ▸ hi')
  rw [enter_windows, hw, hsplit, List.flatMap_append, List.flatMap_cons,
    hnone before fun hi => hnodup.1 (List.mem_append_left _ hi),
    hnone after fun hi => hnodup.1 (List.mem_append_right _ hi)]
  simp

/-- **A record**: what was held, and the record, is held afterwards or was handed over. -/
theorem accept_balance (h : l.Sound) (a : Arrival) {c : Assignment × OpenWindows}
    {kept opened : List Nat} (hc : l.windows.Assigning c kept opened) {id : Nat}
    (hw : c.1.windows.map Window.id = [id]) :
    (StreamSql.fired (l.accept j a c).1 ++ (l.accept j a c).2.held).Perm (l.held ++ [a]) := by
  have h₁ := noteLate_sound (j := j) (settle_sound h hc) c.1.windows
  have h₂ := entered_sound (j := j) h a hc
  have h₃ := closing_sound h₂ (OpenWindows.takeReady_closing h₂.numbered.inOrder)
  have hid : id ∈ ((l.settle (c.1.closed, c.2)).2.noteLate j c.1.windows).windows.ids := by
    rw [noteLate_windows, settle_windows]
    exact hc.assigned id (hw ▸ List.mem_singleton_self id)
  have hp₁ := settle_balance h hc
  have hp₂ := enter_balance h₁ a hw hid
  have hp₃ := closing_balance h₂ (OpenWindows.takeReady_closing h₂.numbered.inOrder)
  rw [noteLate_held] at hp₂
  show (StreamSql.fired (_ ++ _ ++ _) ++ _).Perm _
  rw [fired_append, fired_append, List.append_assoc, List.append_assoc]
  -- what is handed over last was held before, and so on up to the beginning
  refine (((((closing_balance h₃
    (OpenWindows.closeHorizon_closing h₃.numbered.inOrder _)).append_left _).trans
    hp₃).trans hp₂).append_left _).trans ?_
  rw [← List.append_assoc]
  exact hp₁.append_right [a]

/-! ## Histories -/

/-- No window slides. -/
def Still (l : Ledger) : Prop :=
  ∀ size slide, l.windows.grid? ≠ some (.sliding size slide)

/-- **One event**, unless it drops the windows. -/
theorem step_balance (h : l.Sound) (hs : l.Still) {e : Event} (he : e.keeps = true) :
    (StreamSql.fired (l.step j e).1 ++ (l.step j e).2.held).Perm
      (l.held ++ arrivals j.plan l.dial [e]) := by
  cases e with
  | arrival now record =>
    obtain ⟨kept, opened, hc⟩ := OpenWindows.assign_assigning h.numbered.inOrder
      (l.arrivalOf j now record).time (j.plan.groupKey record)
    obtain ⟨id, hw⟩ := OpenWindows.assign_single hs (l.arrivalOf j now record).time
      (j.plan.groupKey record)
    exact accept_balance (l := l.dated j now record) ⟨h.numbered, h.outside⟩
      (l.arrivalOf j now record) hc hw
  | poll now =>
    rw [show arrivals j.plan l.dial [.poll now] = [] from rfl, List.append_nil]
    exact closing_balance (l := { l with dial := l.dial.after j.plan (.poll now) })
      ⟨h.numbered, h.outside⟩ (OpenWindows.closeHorizon_closing h.numbered.inOrder _)
  | trigger =>
    rw [show arrivals j.plan l.dial [.trigger] = [] from rfl, List.append_nil]
    exact closing_balance h (OpenWindows.closeAll_closing h.numbered.inOrder)
  | discard => cases he

/-- **A history** that drops no windows. -/
theorem play_balance (events : List Event) (h : l.Sound) (hs : l.Still)
    (he : ∀ e ∈ events, e.keeps = true) :
    (StreamSql.fired (l.play j events).1 ++ (l.play j events).2.held).Perm
      (l.held ++ arrivals j.plan l.dial events) := by
  induction events generalizing l with
  | nil => exact List.Perm.of_eq (List.append_nil _).symm
  | cons e rest ih =>
    have hp₁ := step_balance (j := j) h hs (he e List.mem_cons_self)
    have hp₂ := ih (step_sound (j := j) h e) (fun size slide => by rw [step_grid?]; exact hs size slide)
      fun e he' => he e (List.mem_cons_of_mem _ he')
    rw [play, fired_append, List.append_assoc, arrivals_cons, ← step_dial]
    refine (hp₂.append_left _).trans ?_
    rw [← List.append_assoc, ← List.append_assoc]
    exact hp₁.append_right _

end Ledger

end StreamSql
