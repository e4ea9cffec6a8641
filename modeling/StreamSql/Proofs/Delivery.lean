/-
  Records of sliding windows, from their arrival to a batch.

  `process_delivers`: every record comes into a window, unless its time is the greatest word or no
  window begins between the least word and its time; and a record that comes into windows is in
  a batch of each of them once they all fired.  A record that comes into no window is lost
  without a trace.

  * `Grid.Catches`, `sliding_starts_ne_nil_iff`: the times that sliding windows contain;
  * `Ledger.Carries`, `Delivers`: an open window has an arrival, and a window fired with it;
  * `arrive_carries`, `play_delivers`: an arrival comes into its windows, and from there into
    firings.
-/
import StreamSql.Proofs.Overdue

namespace StreamSql

/-! ## Times that a window contains -/

namespace Grid

/-- The time is before the greatest word, and the last multiple of the stride up to it is after
    the least word. -/
def Catches (g : Grid) (time : Int64) : Prop :=
  time.toInt < Word.greatest ∧ Word.least < time.toInt / g.stride * g.stride

instance (g : Grid) (time : Int64) : Decidable (g.Catches time) :=
  inferInstanceAs (Decidable (_ ∧ _))

variable {size slide : Span} {time : Int64}

/-- A beginning of a window that contains the time is one of its starts. -/
theorem mem_sliding_starts {start : Int64} : start ∈ (sliding size slide).starts time ↔
    ∃ k, (size.before time).toInt < k * slide.millis.toInt ∧ k * slide.millis.toInt ≤ time.toInt ∧
      slide.multiple k = start ∧ time < size.after start := by
  have hpos := slide.positive
  simp only [starts, List.mem_filter, List.mem_map, mem_indices, Span.index, decide_eq_true_iff,
    Int.add_one_le_iff, Int.ediv_lt_iff_lt_mul hpos, Int.le_ediv_iff_mul_le hpos]
  constructor
  · rintro ⟨⟨k, ⟨hlo, hhi⟩, hk⟩, hend⟩
    exact ⟨k, hlo, hhi, hk, hend⟩
  · rintro ⟨k, hlo, hhi, hk, hend⟩
    exact ⟨⟨k, ⟨hlo, hhi⟩, hk⟩, hend⟩

/-- **Sliding windows that leave no gaps contain every time** but those at the ends of the time
    line. -/
theorem sliding_starts_ne_nil_iff (h : slide.millis.toInt ≤ size.millis.toInt) :
    (sliding size slide).starts time ≠ [] ↔ (sliding size slide).Catches time := by
  have hpos := slide.positive
  have htime := Word.toInt_bounds time
  have hbefore : (size.before time).toInt = max Word.least (min (time.toInt - size.millis.toInt)
      Word.greatest) := Word.toInt_nearest _
  constructor
  · intro hne
    obtain ⟨start, hstart⟩ := List.exists_mem_of_ne_nil _ hne
    obtain ⟨k, hlo, hhi, -, hend⟩ := mem_sliding_starts.1 hstart
    have hlast : k * slide.millis.toInt ≤
        time.toInt / slide.millis.toInt * slide.millis.toInt :=
      Int.mul_le_mul_of_nonneg_right ((Int.le_ediv_iff_mul_le hpos).2 hhi) (Int.le_of_lt hpos)
    have hmax := (Word.toInt_bounds (size.after start)).2
    have hmin := (Word.toInt_bounds (size.before time)).1
    rw [Int64.lt_iff_toInt_lt] at hend
    exact ⟨Int.lt_of_lt_of_le hend hmax,
      Int.lt_of_lt_of_le (Int.lt_of_le_of_lt hmin hlo) hlast⟩
  · rintro ⟨hmax, hmin⟩
    replace hmin : Word.least < time.toInt / slide.millis.toInt * slide.millis.toInt := hmin
    -- the last window that begins up to the time contains it
    have hle := Int.ediv_mul_le time.toInt (Int.ne_of_gt hpos)
    have hnext := Int.lt_ediv_add_one_mul_self time.toInt hpos
    rw [Int.add_mul, Int.one_mul] at hnext
    have hstart : (slide.multiple (time.toInt / slide.millis.toInt)).toInt =
        time.toInt / slide.millis.toInt * slide.millis.toInt :=
      Word.toInt_nearest_of_fits (Int.le_of_lt hmin) (by omega)
    refine List.ne_nil_of_mem
      (mem_sliding_starts.2 ⟨time.toInt / slide.millis.toInt, ?_, hle, rfl, ?_⟩)
    · rw [hbefore]
      omega
    · rw [Int64.lt_iff_toInt_lt, Span.after, Word.addSat, hstart, Word.toInt_nearest]
      omega

end Grid

/-- Windows that are valid leave no gaps. -/
theorem WindowSpec.slide_le_size {size slide : Duration}
    (h : (WindowSpec.sliding size slide).check = .ok ()) :
    (Span.ofDuration slide).millis.toInt ≤ (Span.ofDuration size).millis.toInt := by
  have hle : slide.nanos ≤ size.nanos := by
    by_contra hgt
    rw [check, fault?] at h
    split at h
    · cases h
    · next hnone =>
      split at hnone
      · cases hnone
      · rw [if_pos (Nat.not_le.1 hgt)] at hnone
        cases hnone
  refine Word.nearest_mono ?_
  have hmillis : slide.millis ≤ size.millis := Nat.div_le_div_right hle
  omega

namespace OpenWindows

/-- An open window has its number among those of the windows that were not taken. -/
theorem id_mem_ids {w : OpenWindows} {v : Window} (hv : v ∈ w.windows) : v.id ∈ w.ids := by
  cases w with
  | aligned w =>
    obtain ⟨row, hrow, rfl⟩ := List.mem_map.1 hv
    exact List.mem_map_of_mem (f := Prod.snd) hrow
  | counting w =>
    obtain ⟨row, hrow, rfl⟩ := List.mem_map.1 hv
    exact List.mem_append_right _
      (List.mem_map_of_mem (f := fun row : GroupKey × Tally => row.2.id) hrow)
  | session w =>
    obtain ⟨row, hrow, rfl⟩ := List.mem_map.1 hv
    exact List.mem_map_of_mem (f := fun row : GroupKey × Session => row.2.id) hrow

theorem windows_subset_closeAll {w : OpenWindows} (h : w.InOrder) :
    w.windows ⊆ w.closeAll.1 := by
  cases w with
  | aligned w =>
    simp [windows, closeAll, AlignedWindows.closeAll, AlignedWindows.closeWhere,
      AlignedWindows.opened]
  | counting w => simp [windows, closeAll, CountingWindows.closeAll_eq h]
  | session w =>
    simp [windows, closeAll, SessionWindows.closeAll, SessionWindows.closeWhere_eq h]

theorem enterAll_eq_nil {starts : List Int64} {w : AlignedWindows} :
    (w.enterAll starts).1 = [] ↔ starts = [] := by
  cases starts <;> simp [AlignedWindows.enterAll]

end OpenWindows

/-! ## Arrivals on their way -/

/-- A window fired with an arrival. -/
def Delivers (firings : List Firing) (a : Arrival) (v : Window) : Prop :=
  ∃ f ∈ firings, f.window = v ∧ a ∈ f.arrivals

theorem Delivers.append_left {firings more : List Firing} {a : Arrival} {v : Window}
    (h : Delivers firings a v) : Delivers (firings ++ more) a v :=
  let ⟨f, hf, hd⟩ := h
  ⟨f, List.mem_append_left _ hf, hd⟩

theorem Delivers.append_right {firings more : List Firing} {a : Arrival} {v : Window}
    (h : Delivers more a v) : Delivers (firings ++ more) a v :=
  let ⟨f, hf, hd⟩ := h
  ⟨f, List.mem_append_right _ hf, hd⟩

/-- A window that fired with an arrival has a batch that is made of its record among others. -/
theorem Delivers.exists_batch {j : Job} {firings : List Firing} {a : Arrival} {v : Window}
    (h : Delivers firings a v) : ∃ records, a.record ∈ records ∧
      j.plan.batchOf j.substitute j.fresh v.bounds records ∈ j.batches firings := by
  obtain ⟨f, hf, rfl, ha⟩ := h
  exact ⟨f.arrivals.map Arrival.record, List.mem_map_of_mem ha, List.mem_map.2 ⟨f, hf, rfl⟩⟩

namespace Ledger

variable {j : Job} {l : Ledger} {a : Arrival} {v : Window}

/-- An open window has an arrival. -/
def Carries (l : Ledger) (a : Arrival) (v : Window) : Prop :=
  v ∈ l.windows.windows ∧ a ∈ l.content v.id

section

variable (h : l.Sound) {c : List Window × OpenWindows} (hc : l.windows.Closing c)
include h hc

theorem delivers_of_closed (ha : a ∈ l.content v.id) (hv : v ∈ c.1) :
    Delivers (l.settle c).1 a v := by
  have hfires := (fire_eq (l := { l with windows := c.2 }) (closed_nodup h hc.assigning)).1
  have hocc : v ∈ ({ l with windows := c.2 } : Ledger).occupied c.1 :=
    List.mem_filter.2 ⟨hv, by simpa using List.ne_nil_of_mem ha⟩
  refine ⟨⟨v, l.content v.id⟩, ?_, rfl, ha⟩
  rw [settle]
  exact hfires ▸ List.mem_map.2 ⟨v, hocc, rfl⟩

theorem carries_of_open (ha : a ∈ l.content v.id) (hv : v ∈ c.2.windows) :
    Carries (l.settle c).2 a v := by
  refine ⟨by rwa [settle_windows], ?_⟩
  rw [settle_kept h hc.assigning (OpenWindows.id_mem_ids hv)]
  exact ha

end

/-- An arrival that a window has fires with it or stays in it. -/
theorem fireDue_delivers (h : l.Sound) (hcarries : l.Carries a v) :
    Delivers (l.fireDue j).1 a v ∨ (l.fireDue j).2.Carries a v := by
  have hl := h.numbered.inOrder
  have hc := OpenWindows.closeHorizon_closing hl (l.dial.horizon j.plan j.lateness)
  rcases OpenWindows.mem_closeHorizon hl (l.dial.horizon j.plan j.lateness) hcarries.1 with hv | hv
  · exact .inl (delivers_of_closed h hc hcarries.2 hv)
  · exact .inr (carries_of_open h hc hcarries.2 hv)

theorem trigger_delivers (h : l.Sound) (hcarries : l.Carries a v) :
    Delivers (l.step j .trigger).1 a v :=
  delivers_of_closed h (OpenWindows.closeAll_closing h.numbered.inOrder) hcarries.2
    (OpenWindows.windows_subset_closeAll h.numbered.inOrder hcarries.1)

/-- **A record comes into its windows** on a grid, and then those fire that are due. -/
theorem arrive_carries (h : l.Sound) {w : AlignedWindows} (hw : l.windows = .aligned w)
    (now : Int64) (record : Record) :
    ∃ entered : Ledger, l.arrive j now record = entered.fireDue j ∧ entered.Sound ∧
      (∀ b u, l.Carries b u → entered.Carries b u) ∧
      ∀ u ∈ (w.assign (l.arrivalOf j now record).time).1.windows,
        entered.Carries (l.arrivalOf j now record) u := by
  let a := l.arrivalOf j now record
  let c := w.assign a.time
  obtain ⟨opened, hc⟩ := OpenWindows.enterAll_assigning (w.grid.starts a.time) w
  have hdated : (l.dated j now record).Sound := ⟨h.numbered, h.outside⟩
  have hassign : l.windows.assign a.time (j.plan.groupKey record) =
      (⟨c.1.windows, []⟩, .aligned c.2) := by
    rw [hw]
    rfl
  have hsubset := OpenWindows.enterAll_opened (w.grid.starts a.time) w
  refine ⟨(({ l.dated j now record with windows := .aligned c.2 }.noteLate j c.1.windows).enter a
    c.1.windows), ?_, ?_, ?_, ?_⟩
  · rw [arrive, hassign]
    exact accept_aligned ..
  · exact entered_sound hdated a (c := (⟨c.1.windows, []⟩, .aligned c.2))
      (show (l.dated j now record).windows.Assigning _ _ _ from hw ▸ hc)
  · rintro b u ⟨hu, hb⟩
    rw [hw] at hu
    refine ⟨?_, List.mem_append_left _ ?_⟩
    · rw [enter_windows, noteLate_windows]
      exact hsubset.1 hu
    · rw [noteLate_content]
      exact hb
  · intro u hu
    refine ⟨?_, List.mem_append_right _ ?_⟩
    · rw [enter_windows, noteLate_windows]
      exact hsubset.2 hu
    · exact List.mem_replicate.2 ⟨Nat.ne_of_gt (List.count_pos_iff.2 (List.mem_map_of_mem hu)), rfl⟩

/-- The windows are at fixed places. -/
def Aligned (l : Ledger) : Prop :=
  l.windows.grid?.isSome = true

theorem Aligned.exists_windows (h : l.Aligned) : ∃ w, l.windows = .aligned w := by
  rw [Aligned] at h
  cases hw : l.windows with
  | aligned w => exact ⟨w, rfl⟩
  | counting w => rw [hw] at h; cases h
  | session w => rw [hw] at h; cases h

theorem Aligned.step (h : l.Aligned) (e : Event) : (l.step j e).2.Aligned := by
  rw [Aligned, step_grid?]
  exact h

/-- **One event**, unless it drops the windows: what a window has fires with it or stays in it. -/
theorem step_delivers (h : l.Sound) (hg : l.Aligned) (hcarries : l.Carries a v) {e : Event}
    (he : e.keeps = true) : Delivers (l.step j e).1 a v ∨ (l.step j e).2.Carries a v := by
  cases e with
  | arrival now record =>
    obtain ⟨w, hw⟩ := hg.exists_windows
    obtain ⟨entered, harrive, hsound, hkept, -⟩ := arrive_carries (j := j) h hw now record
    rw [step, harrive]
    exact fireDue_delivers hsound (hkept a v hcarries)
  | poll now =>
    exact fireDue_delivers (l := { l with dial := l.dial.after j.plan (.poll now) })
      ⟨h.numbered, h.outside⟩ hcarries
  | trigger => exact .inl (trigger_delivers h hcarries)
  | discard => cases he

/-- **Any events** that drop no windows. -/
theorem play_delivers (events : List Event) (h : l.Sound) (hg : l.Aligned)
    (hcarries : l.Carries a v) (he : ∀ e ∈ events, e.keeps = true) :
    Delivers (l.play j (events ++ [.trigger])).1 a v := by
  induction events generalizing l with
  | nil => exact (trigger_delivers h hcarries).append_left
  | cons e rest ih =>
    rw [List.cons_append, play]
    rcases step_delivers (j := j) h hg hcarries (he e List.mem_cons_self) with hdelivers | hcarries
    · exact hdelivers.append_left
    · exact Delivers.append_right (ih (step_sound h e) (hg.step e) hcarries fun e' he' =>
        he e' (List.mem_cons_of_mem _ he'))

/-- **A record**, and any events after it that drop no windows. -/
theorem arrive_delivers (h : l.Sound) {w : AlignedWindows} (hw : l.windows = .aligned w)
    (now : Int64) (record : Record)
    (hv : v ∈ (w.assign (l.arrivalOf j now record).time).1.windows) {later : List Event}
    (he : ∀ e ∈ later, e.keeps = true) :
    Delivers ((l.arrive j now record).1 ++
      ((l.arrive j now record).2.play j (later ++ [.trigger])).1) (l.arrivalOf j now record) v := by
  obtain ⟨entered, harrive, hsound, -, hcarries⟩ := arrive_carries (j := j) h hw now record
  have hfires := fireDue_delivers (j := j) hsound (hcarries v hv)
  rw [← harrive] at hfires
  rcases hfires with hdelivers | hcarries
  · exact hdelivers.append_left
  · have hg : l.Aligned := by
      rw [Aligned, hw]
      rfl
    exact Delivers.append_right (play_delivers later (step_sound h (.arrival now record))
      (hg.step (.arrival now record)) hcarries he)

end Ledger

namespace WindowedRun

/-- **Records of sliding windows.**  A query with valid sliding windows takes any record after
    any history.  The record comes into a window just if its time is caught, and every window
    that it comes into fires with it, at the latest when all windows fire, unless they are
    dropped. -/
theorem process_delivers {p : Plan} {config : Config} {accs : List Accumulator}
    (hp : p.newAccumulators = .ok accs) {size slide : Duration}
    (hc : (WindowSpec.sliding size slide).check = .ok ()) (events : List Event) (now : Int64)
    (record : Record) :
    ∃ past r batches s, (start p (.sliding size slide) config).play events = .ok (past, r) ∧
      r.process now record = .ok (batches, s) ∧
      (r.windowsOf now record ≠ [] ↔
        (Grid.sliding (.ofDuration size) (.ofDuration slide)).Catches (r.timeOf now record)) ∧
      ∀ later, (∀ e ∈ later, e.keeps = true) → ∃ more t,
        s.play (later ++ [.trigger]) = .ok (more, t) ∧
        ∀ w ∈ r.windowsOf now record, ∃ records, record ∈ records ∧
          p.batchOf config.substitute accs w.bounds records ∈ batches ++ more := by
  let spec := WindowSpec.sliding size slide
  let j : Job := ⟨p, config.substitute, config.lateness, accs, hp⟩
  let l : Ledger := { windows := .ofSpec spec }
  obtain ⟨r, hplay, hr⟩ := play_follows events (start_follows spec config j rfl rfl)
  obtain ⟨s, hprocess, hs⟩ := process_follows hr now record
  obtain ⟨hsound, -⟩ := Ledger.play_sound (j := j) events (Ledger.ofSpec_sound spec)
    (Ledger.ofSpec_filled spec)
  obtain ⟨-, -, -, hgrid⟩ := play_kept (ofSpec_sound p spec config)
    (start_settled p spec config) hplay
  have haligned : (l.play j events).2.Aligned := by
    rw [Ledger.Aligned, ← hr.windows, hgrid]
    rfl
  obtain ⟨w, hw⟩ := haligned.exists_windows
  have hwgrid : w.grid = .sliding (.ofDuration size) (.ofDuration slide) := by
    rw [hr.windows, hw] at hgrid
    exact Option.some.inj hgrid
  have htime : ((l.play j events).2.arrivalOf j now record).time = r.timeOf now record := by
    rw [timeOf, hr.dial, hr.plan]
    rfl
  have hof : r.windowsOf now record = (w.assign (r.timeOf now record)).1.windows := by
    rw [windowsOf, hr.windows, hw]
    rfl
  refine ⟨_, r, _, s, hplay, hprocess, ?_, fun later hlater => ?_⟩
  · rw [hof, ← Grid.sliding_starts_ne_nil_iff (WindowSpec.slide_le_size hc), ← hwgrid]
    exact not_congr OpenWindows.enterAll_eq_nil
  · obtain ⟨t, hlast, -⟩ := play_follows (later ++ [.trigger]) hs
    refine ⟨_, t, hlast, fun v hv => ?_⟩
    rw [hof, ← htime] at hv
    obtain ⟨records, hmem, hbatch⟩ :=
      (Ledger.arrive_delivers hsound hw now record hv hlater).exists_batch (j := j)
    refine ⟨records, hmem, ?_⟩
    rw [Job.batches, List.map_append] at hbatch
    exact hbatch

/-- Windows of 5 milliseconds, one after the other: a record at 3 is in the batch of the window
    from 0 to 5, and one at the greatest word comes into no window. -/
theorem process_delivers_ends :
    (∃ past r batches s more t, (start .collectIds (.sliding ⟨5000000⟩ ⟨5000000⟩) {}).play [] =
        .ok (past, r) ∧ r.process 0 (.numbered 1 3) = .ok (batches, s) ∧
      r.windowsOf 0 (.numbered 1 3) = [⟨0, ⟨0, 5⟩⟩] ∧ s.play [.trigger] = .ok (more, t) ∧
      ∃ records, .numbered 1 3 ∈ records ∧
        Plan.collectIds.batchOf .null [.collect []] ⟨0, 5⟩ records ∈ batches ++ more) ∧
    ∃ past r, (start .collectIds (.sliding ⟨5000000⟩ ⟨5000000⟩) {}).play [] = .ok (past, r) ∧
      r.windowsOf 0 (.numbered 1 Int64.maxValue) = [] := by
  have hp : Plan.collectIds.newAccumulators = .ok [.collect []] := rfl
  have hc : (WindowSpec.sliding ⟨5000000⟩ ⟨5000000⟩).check = .ok () := rfl
  refine ⟨?_, ?_⟩
  · obtain ⟨past, r, batches, s, hplay, hprocess, -, hfires⟩ :=
      @process_delivers _ {} _ hp _ _ hc [] 0 (.numbered 1 3)
    obtain ⟨rfl, rfl⟩ := Prod.mk.inj (Except.ok.inj hplay)
    obtain ⟨more, t, hmore, hin⟩ := hfires [] (fun e he => absurd he List.not_mem_nil)
    have hof : (start .collectIds (.sliding ⟨5000000⟩ ⟨5000000⟩) {}).windowsOf 0 (.numbered 1 3) =
        [⟨0, ⟨0, 5⟩⟩] := by
      decide +kernel
    exact ⟨_, _, batches, s, more, t, hplay, hprocess, hof, hmore,
      hin ⟨0, ⟨0, 5⟩⟩ (hof ▸ List.mem_cons_self)⟩
  · obtain ⟨past, r, batches, s, hplay, -, hcatches, -⟩ :=
      @process_delivers _ {} _ hp _ _ hc [] 0 (.numbered 1 Int64.maxValue)
    obtain ⟨rfl, rfl⟩ := Prod.mk.inj (Except.ok.inj hplay)
    have hnot : ¬ (Grid.sliding (.ofDuration ⟨5000000⟩) (.ofDuration ⟨5000000⟩)).Catches
        ((start .collectIds (.sliding ⟨5000000⟩ ⟨5000000⟩) {}).timeOf 0
          (.numbered 1 Int64.maxValue)) := by
      decide +kernel
    exact ⟨_, _, hplay, Classical.not_not.1 fun hne => hnot (hcatches.1 hne)⟩

end WindowedRun

end StreamSql
