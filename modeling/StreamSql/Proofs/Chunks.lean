/-
  Counting windows cut the records of every group into chunks.

  * `fullChunks n as`, `leftover n as`: the full chunks of a list and what is left;
    `lastChunk n as`: the chunk that the last item completes;
  * `Ledger.Counts`: a ledger of counting windows with its book; `arrive_counting`: what the
    arrival of a record does to it;
  * `Chunked`: for every group, the windows that fired are the full chunks of its arrivals and
    the open window has what is left;
  * `play_counting`: so it is after every history.
-/
import StreamSql.Proofs.Book

namespace StreamSql

/-! ## Chunks of a list -/

section

variable {α : Type}

/-- The consecutive parts of a list with `n` items each. -/
def fullChunks (n : Nat) (as : List α) : List (List α) :=
  (List.range (as.length / n)).map fun i => (as.drop (i * n)).take n

/-- What is left of a list behind its full chunks. -/
def leftover (n : Nat) (as : List α) : List α :=
  as.drop (as.length / n * n)

/-- The chunk that the last item of a list completes, if it completes one. -/
def lastChunk (n : Nat) (as : List α) : List (List α) :=
  if n ∣ as.length then [as.drop (as.length - n)] else []

theorem length_leftover (n : Nat) (as : List α) : (leftover n as).length = as.length % n := by
  rw [leftover, List.length_drop, Nat.mod_eq_sub, Nat.mul_comm]

theorem dvd_succ_iff {n m : Nat} (hn : 0 < n) : n ∣ m + 1 ↔ n ≤ m % n + 1 := by
  have hlt := Nat.mod_lt m hn
  have hm : m + 1 = n * (m / n) + (m % n + 1) := by
    have := Nat.div_add_mod m n
    omega
  rw [hm, Nat.dvd_add_right (Nat.dvd_mul_right ..)]
  constructor
  · exact Nat.le_of_dvd (Nat.succ_pos _)
  · intro hle
    exact ⟨1, by omega⟩

variable {n : Nat} {as : List α} (a : α)

/-- Full chunks do not change when an item follows. -/
theorem fullChunks_prefix :
    ((List.range (as.length / n)).map fun i => ((as ++ [a]).drop (i * n)).take n) =
      fullChunks n as := by
  refine List.map_congr_left fun i hi => ?_
  have hend : (i + 1) * n ≤ as.length :=
    (Nat.mul_le_mul_right n (List.mem_range.1 hi)).trans (Nat.div_mul_le_self ..)
  rw [Nat.add_mul, Nat.one_mul] at hend
  rw [List.drop_append_of_le_length (by omega), List.take_append_of_le_length]
  rw [List.length_drop]
  omega

theorem leftover_append : (as ++ [a]).drop (as.length / n * n) = leftover n as ++ [a] :=
  List.drop_append_of_le_length (Nat.div_mul_le_self ..)

/-- **An item that fills a chunk.** -/
theorem chunks_concat_full (h : (leftover n as).length + 1 = n) :
    fullChunks n (as ++ [a]) = fullChunks n as ++ [leftover n as ++ [a]] ∧
      leftover n (as ++ [a]) = [] ∧
      leftover n as ++ [a] = (as ++ [a]).drop ((as ++ [a]).length - n) := by
  have hlength : (as ++ [a]).length = (as.length / n + 1) * n := by
    rw [length_leftover] at h
    rw [List.length_append, List.length_singleton, Nat.add_mul, Nat.one_mul]
    have := Nat.div_add_mod' as.length n
    omega
  have hdiv : (as ++ [a]).length / n = as.length / n + 1 := by
    rw [hlength, Nat.mul_div_cancel _ (by omega)]
  refine ⟨?_, ?_, ?_⟩
  · rw [fullChunks, hdiv, List.range_succ, List.map_append, fullChunks_prefix, List.map_singleton,
      leftover_append, List.take_of_length_le (by simp [h])]
  · rw [leftover, hdiv, ← hlength, List.drop_length]
  · rw [hlength, Nat.add_mul, Nat.one_mul, Nat.add_sub_cancel, leftover_append]

/-- An item that does not fill a chunk. -/
theorem chunks_concat_part (h : (leftover n as).length + 1 < n) :
    fullChunks n (as ++ [a]) = fullChunks n as ∧
      leftover n (as ++ [a]) = leftover n as ++ [a] := by
  have hdiv : (as ++ [a]).length / n = as.length / n := by
    rw [length_leftover] at h
    rw [List.length_append, List.length_singleton]
    have := Nat.div_add_mod' as.length n
    exact (Nat.div_eq_iff (by omega)).2 (by constructor <;> omega)
  exact ⟨by rw [fullChunks, hdiv, fullChunks_prefix], by rw [leftover, hdiv, leftover_append]⟩

end

/-! ## One arrival -/

/-- The bounds of a window of counted arrivals: from the earliest to just after the latest. -/
def countedBounds (as : List Arrival) : Bounds :=
  ⟨((as.map Arrival.time).min?).getD 0, Word.addSat (((as.map Arrival.time).max?).getD 0) 1⟩

/-- The tally of these arrivals. -/
structure Tally.Of (t : Tally) (as : List Arrival) : Prop where
  count : t.count = as.length
  earliest : (as.map Arrival.time).min? = some t.earliest
  latest : (as.map Arrival.time).max? = some t.latest

namespace Tally

theorem of_singleton (id : Nat) (a : Arrival) :
    Tally.Of (Tally.add ⟨id, 0, a.time, a.time⟩ a.time) [a] := by
  have hmin : min a.time a.time = a.time := ite_self a.time
  have hmax : max a.time a.time = a.time := ite_self a.time
  exact ⟨rfl, congrArg some hmin.symm, congrArg some hmax.symm⟩

theorem Of.add {t : Tally} {as : List Arrival} (h : t.Of as) (a : Arrival) :
    (t.add a.time).Of (as ++ [a]) := by
  obtain ⟨hcount, hearliest, hlatest⟩ := h
  cases as with
  | nil => cases hearliest
  | cons first rest =>
    rw [List.map_cons, List.min?_cons'] at hearliest
    rw [List.map_cons, List.max?_cons'] at hlatest
    refine ⟨by simp [Tally.add, hcount], ?_, ?_⟩
    · rw [List.cons_append, List.map_cons, List.min?_cons', List.map_append, List.foldl_append,
        Option.some.inj hearliest]
      rfl
    · rw [List.cons_append, List.map_cons, List.max?_cons', List.map_append, List.foldl_append,
        Option.some.inj hlatest]
      rfl

theorem Of.bounds {t : Tally} {as : List Arrival} (h : t.Of as) :
    t.window.bounds = countedBounds as := by
  rw [countedBounds, h.earliest, h.latest]
  rfl

end Tally

namespace CountingWindows

/-- The window of the group before a record: the open one, or an empty one with the next
    number. -/
def tallyFor (w : CountingWindows) (time : Int64) (key : GroupKey) : Tally :=
  (w.opened.get? key).getD ⟨w.next, 0, time, time⟩

/-- What a record does: its window leaves the open ones when it is full. -/
theorem assign_spec (w : CountingWindows) (time : Int64) (key : GroupKey) :
    (w.assign time key).1 = ⟨[((w.tallyFor time key).add time).window], []⟩ ∧
      (w.assign time key).2.capacity = w.capacity ∧
      (w.capacity ≤ ((w.tallyFor time key).add time).count →
        (w.assign time key).2.opened = w.opened.erase key ∧
          (w.assign time key).2.ready = w.ready ++ [((w.tallyFor time key).add time).window]) ∧
      (¬ w.capacity ≤ ((w.tallyFor time key).add time).count →
        (w.assign time key).2.opened = w.opened.insert key ((w.tallyFor time key).add time) ∧
          (w.assign time key).2.ready = w.ready) ∧
      (w.assign time key).2.next = if (w.opened.get? key).isSome then w.next else w.next + 1 := by
  rw [tallyFor]
  cases h : w.opened.get? key with
  | some t =>
    rw [assign_of_some h, Option.getD_some]
    by_cases hfull : w.capacity ≤ (t.add time).count <;> simp [hfull]
  | none =>
    rw [assign_of_none h, Option.getD_none]
    by_cases hfull : w.capacity ≤ ((⟨w.next, 0, time, time⟩ : Tally).add time).count <;>
      simp [hfull, Groups.erase_of_get?_eq_none h]

end CountingWindows

namespace Ledger

variable {j : Job} {l : Ledger} {w : CountingWindows} {b : Book Tally}

/-- The ledger counts, and the book has its open windows. -/
structure Counts (l : Ledger) (w : CountingWindows) (b : Book Tally) : Prop where
  windows : l.windows = .counting w
  ready : w.ready = []
  opened : w.opened = b.states
  holds : l.Holds Tally.id b
  below : ∀ v ∈ b.map Prod.snd, v.1.id < w.next

theorem noteLate_counting (h : l.windows = .counting w) (windows : List Window) :
    l.noteLate j windows = l := by
  have hlate : l.isLate j windows = false := by
    rw [isLate, h]
    cases l.dial.watermark j.lateness <;> rfl
  rw [noteLate, hlate]
  rfl

/-- Counting windows do not depend on the time. -/
theorem fireDue_counting (h : l.windows = .counting w) : l.fireDue j = ([], l) := by
  cases l
  cases h
  rw [fireDue]
  cases Dial.horizon j.plan j.lateness _ <;> rfl

theorem poll_counting (h : l.windows = .counting w) (now : Int64) :
    l.step j (.poll now) = ([], { l with dial := l.dial.after j.plan (.poll now) }) :=
  fireDue_counting (l := { l with dial := l.dial.after j.plan (.poll now) }) h

theorem accept_counting (l : Ledger) (a : Arrival) (window : Window) (w : CountingWindows) :
    l.accept j a (⟨[window], []⟩, .counting w) =
      ({ l with windows := .counting w }.enter a [window]).settle
        (w.ready, .counting { w with ready := [] }) := by
  have hdue := fireDue_counting (j := j) (l := (({ l with windows := .counting w }.enter a
    [window]).settle (w.ready, .counting { w with ready := [] })).2) (settle_windows ..)
  have hlate := noteLate_counting (j := j) (l := { l with windows := .counting w }) rfl [window]
  rw [accept, show l.settle _ = ([], { l with windows := .counting w }) from rfl]
  simp only [hlate]
  rw [show fireReady _ = ({ l with windows := .counting w }.enter a [window]).settle
    (w.ready, .counting { w with ready := [] }) from rfl, hdue, List.nil_append, List.append_nil]

/-- The numbers of the windows that count a record. -/
theorem Counts.tallyFor_id (h : l.Counts w b) (time : Int64) (key : GroupKey) :
    (∀ v, b.get? key = some v → w.tallyFor time key = v.1) ∧
      (b.get? key = none → w.tallyFor time key = ⟨w.next, 0, time, time⟩) ∧
      w.next ≤ (w.assign time key).2.next ∧
      (w.tallyFor time key).id < (w.assign time key).2.next := by
  obtain ⟨-, -, -, -, hnext⟩ := w.assign_spec time key
  have hget : w.opened.get? key = (b.get? key).map Prod.fst := by
    rw [h.opened, b.get?_states]
  rw [hnext, CountingWindows.tallyFor, hget]
  cases hg : b.get? key with
  | none => exact ⟨nofun, fun _ => rfl, Nat.le_succ _, Nat.lt_succ_self _⟩
  | some v =>
    obtain ⟨k, hk⟩ := Groups.mem_of_get? hg
    refine ⟨fun u hu => ?_, nofun, Nat.le_refl _, h.below v (List.mem_map_of_mem hk)⟩
    rw [Option.some.inj hu]
    rfl

/-- A record comes into the window that counts it. -/
theorem Counts.enter (h : l.Counts w b) {m : Ledger} (hc : m.content = l.content)
    (key : GroupKey) {a : Arrival} {t : Tally} (ht : t = (w.tallyFor a.time key).add a.time) :
    (m.enter a [t.window]).Holds Tally.id (b.insert key (t, b.content key ++ [a])) := by
  obtain ⟨hold, hnew, -⟩ := h.tallyFor_id a.time key
  refine enter_holds (h.holds.congr hc) a rfl (fun v hv => ?_) fun hg hmem => ?_
  · rw [ht, Tally.add, hold v hv]
  · obtain ⟨v, hv, he⟩ := List.mem_map.1 hmem
    rw [ht, Tally.add, hnew hg] at he
    exact Nat.lt_irrefl _ (he ▸ h.below v hv)

/-- **A record that is counted** fills the window of its group, which fires, or stays in it. -/
theorem arrive_counting (h : l.Counts w b) (now : Int64) (record : Record) {key : GroupKey}
    (hkey : key = j.plan.groupKey record) {a : Arrival} (ha : a = l.arrivalOf j now record)
    {t : Tally} (ht : t = (w.tallyFor a.time key).add a.time) :
    (w.capacity ≤ t.count →
      (l.arrive j now record).1 = [⟨t.window, b.content key ++ [a]⟩] ∧
        ∃ w', (l.arrive j now record).2.Counts w' (b.erase key) ∧ w'.capacity = w.capacity) ∧
    (¬ w.capacity ≤ t.count → (l.arrive j now record).1 = [] ∧
        ∃ w', (l.arrive j now record).2.Counts w' (b.insert key (t, b.content key ++ [a])) ∧
          w'.capacity = w.capacity) := by
  obtain ⟨hwindows, hcap, hfull, hpart, -⟩ := w.assign_spec a.time key
  obtain ⟨-, -, hnext, hid⟩ := h.tallyFor_id a.time key
  let w' : CountingWindows := { (w.assign a.time key).2 with ready := [] }
  have hassign : l.windows.assign a.time key =
      (⟨[t.window], []⟩, .counting (w.assign a.time key).2) := by
    rw [h.windows, ht, ← hwindows]
    rfl
  have henter := fun windows => h.enter (m := { l.dated j now record with windows }) rfl key ht
  have harrive : l.arrive j now record =
      (l.dated j now record).accept j a (l.windows.assign a.time key) := by rw [ha, hkey]; rfl
  have hbelow : ∀ v ∈ b.map Prod.snd, v.1.id < w'.next := fun v hv => (h.below v hv).trans_le hnext
  rw [harrive, hassign, accept_counting]
  constructor
  · intro hle
    let v := (t, b.content key ++ [a])
    obtain ⟨hopened, hready⟩ := hfull (ht ▸ hle)
    rw [h.ready, List.nil_append, ← ht] at hready
    obtain ⟨hfire, hholds⟩ := fire_holds (henter (.counting w')) Tally.window (fun _ => rfl)
      (show List.Perm _ ([v] ++ (b.erase key).map Prod.snd) from Groups.insert_perm b key v)
    rw [hready]
    refine ⟨hfire, w', ⟨settle_windows .., rfl, ?_, hholds, Groups.forall_erase hbelow key⟩, hcap⟩
    rw [show w'.opened = _ from hopened, h.opened, b.erase_states]
  · intro hlt
    obtain ⟨hopened, hready⟩ := hpart (ht ▸ hlt)
    rw [h.ready] at hready
    rw [hready]
    refine ⟨rfl, w', ⟨rfl, rfl, ?_, henter _, Groups.forall_insert hbelow key (ht ▸ hid)⟩, hcap⟩
    rw [show w'.opened = _ from hopened, h.opened, ← ht]
    exact b.insert_states key (t, b.content key ++ [a])

end Ledger

/-! ## Histories -/

/-- What has fired and what is open after these arrivals: for every group, the windows that
    fired are its full chunks, and its open window has what is left. -/
structure Chunked (p : Plan) (n : Nat) (past : List Arrival) (firings : List Firing)
    (b : Book Tally) : Prop where
  apart : b.Apart
  tally : ∀ v ∈ b.map Prod.snd, v.1.Of v.2
  open_eq : ∀ key, b.content key = leftover n (p.own key past)
  fired_eq : ∀ key,
    (firings.map Firing.arrivals).filter (p.touches key) = fullChunks n (p.own key past)
  made : ∀ f ∈ firings, f.OfGroup p countedBounds

namespace Chunked

variable {p : Plan} {n : Nat} {past : List Arrival} {firings : List Firing} {b : Book Tally}
  (h : Chunked p n past firings b) {a : Arrival}

theorem nil (p : Plan) (n : Nat) : Chunked p n [] [] [] where
  apart := Groups.apart_nil
  tally := fun _ hv => absurd hv List.not_mem_nil
  open_eq := fun _ => List.drop_nil.symm
  fired_eq := fun _ => by simp [fullChunks, Plan.own]
  made := fun _ hf => absurd hf List.not_mem_nil

include h

/-- What is in the window of the arrival is of its group. -/
theorem owned_concat (a : Arrival) : ∀ x ∈ b.content (p.groupKey a.record) ++ [a],
    p.owns (p.groupKey a.record) x.record = true := fun x hx => by
  rcases List.mem_append.1 hx with hx | hx
  · rw [h.open_eq] at hx
    exact (List.mem_filter.1 (List.mem_of_mem_drop hx)).2
  · rw [List.mem_singleton.1 hx, Plan.owns_eq]
    exact GroupKey.same_refl _

/-- **The window of the arrival is full.** -/
theorem concat_full {t : Tally} (ht : t.Of (b.content (p.groupKey a.record) ++ [a]))
    (hfull : t.count = n) :
    Chunked p n (past ++ [a])
        (firings ++ [⟨t.window, b.content (p.groupKey a.record) ++ [a]⟩])
        (b.erase (p.groupKey a.record)) ∧
      b.content (p.groupKey a.record) ++ [a] = (p.own (p.groupKey a.record) (past ++ [a])).drop
        ((p.own (p.groupKey a.record) (past ++ [a])).length - n) := by
  have howned := h.owned_concat a
  have hne := List.append_ne_nil_of_right_ne_nil (b.content (p.groupKey a.record))
    (List.cons_ne_nil a [])
  have hlength : (leftover n (p.own (p.groupKey a.record) past)).length + 1 = n := by
    rw [← h.open_eq, ← hfull, ht.count, List.length_append]
    rfl
  obtain ⟨hchunks, hleft, hlast⟩ := chunks_concat_full a hlength
  refine ⟨⟨h.apart.erase _, Groups.forall_erase h.tally _, fun key => ?_, fun key => ?_,
    fun f hf => ?_⟩, ?_⟩
  · rw [Book.content, h.apart.get?_erase, Plan.own_concat]
    split
    · exact hleft.symm
    · exact h.open_eq key
  · rw [List.map_append, List.filter_append, h.fired_eq, Plan.own_concat, List.map_singleton,
      List.filter_singleton, Plan.touches_eq hne howned, GroupKey.same_comm key]
    cases hs : (p.groupKey a.record).same key with
    | true =>
      rw [if_pos rfl, hchunks, h.open_eq, Plan.own_congr (GroupKey.same_symm hs)]
      rfl
    | false => exact List.append_nil _
  · rcases List.mem_append.1 hf with hf | hf
    · exact h.made f hf
    · rw [List.mem_singleton.1 hf]
      exact Firing.ofGroup_of_owned hne howned ht.bounds
  · rw [Plan.own_concat, if_pos (GroupKey.same_refl _), h.open_eq]
    exact hlast

/-- The window of the arrival stays open. -/
theorem concat_part {t : Tally} (ht : t.Of (b.content (p.groupKey a.record) ++ [a]))
    (hpart : t.count < n) :
    Chunked p n (past ++ [a]) firings
      (b.insert (p.groupKey a.record) (t, b.content (p.groupKey a.record) ++ [a])) := by
  have hlength : (leftover n (p.own (p.groupKey a.record) past)).length + 1 < n := by
    rw [ht.count, List.length_append, h.open_eq] at hpart
    exact hpart
  obtain ⟨hchunks, hleft⟩ := chunks_concat_part a hlength
  refine ⟨h.apart.insert _ _, Groups.forall_insert h.tally _ ht, fun key => ?_, fun key => ?_,
    h.made⟩
  · rw [Book.content, h.apart.get?_insert, Plan.own_concat]
    split
    · rw [hleft, ← h.open_eq]
      rfl
    · exact h.open_eq key
  · rw [h.fired_eq, Plan.own_concat]
    split
    · next hs => rw [hchunks, Plan.own_congr (GroupKey.same_symm hs)]
    · rfl

end Chunked

namespace Ledger

variable {j : Job} {n : Nat} {past : List Arrival} {firings : List Firing} {l : Ledger}

/-- The ledger counts up to `n`, and what has fired and what is open are chunks. -/
def Chunks (j : Job) (n : Nat) (past : List Arrival) (firings : List Firing) (l : Ledger) : Prop :=
  ∃ w b, l.Counts w b ∧ w.capacity = n ∧ Chunked j.plan n past firings b

/-- **A record** fires the chunk of its group that it completes, if it completes one. -/
theorem arrive_chunks (h : l.Chunks j n past firings) (hn : 0 < n) (now : Int64) (record : Record)
    {own : List Arrival}
    (hown : own = j.plan.own (j.plan.groupKey record) (past ++ [l.arrivalOf j now record])) :
    (l.arrive j now record).1.map Firing.arrivals = lastChunk n own ∧
      (l.arrive j now record).2.Chunks j n (past ++ [l.arrivalOf j now record])
        (firings ++ (l.arrive j now record).1) := by
  obtain ⟨w, b, hcounts, hcap, hb⟩ := h
  let key := j.plan.groupKey record
  let a := l.arrivalOf j now record
  let t := (w.tallyFor a.time key).add a.time
  have htally : t.Of (b.content key ++ [a]) := by
    obtain ⟨hold, hnew, -⟩ := hcounts.tallyFor_id a.time key
    cases hg : b.get? key with
    | none =>
      rw [Book.content_of_none hg, show t = _ from congrArg (Tally.add · a.time) (hnew hg)]
      exact Tally.of_singleton _ a
    | some v =>
      obtain ⟨k, hk⟩ := Groups.mem_of_get? hg
      rw [Book.content_of_some hg, show t = _ from congrArg (Tally.add · a.time) (hold v hg)]
      exact (hb.tally v (List.mem_map_of_mem hk)).add a
  have hlength : own.length = (j.plan.own key past).length + 1 := by
    rw [hown, Plan.own_concat]
    exact (congrArg List.length (if_pos (GroupKey.same_refl _))).trans List.length_append
  have hcount : t.count = (j.plan.own key past).length % n + 1 := by
    rw [htally.count, List.length_append, hb.open_eq key, length_leftover]
    rfl
  have hdvd : n ∣ own.length ↔ n ≤ t.count := by rw [hlength, dvd_succ_iff hn, hcount]
  have hlt := Nat.mod_lt (j.plan.own key past).length hn
  obtain ⟨hfull, hpart⟩ := arrive_counting hcounts now record rfl rfl (t := t) rfl
  rw [hcap] at hfull hpart
  by_cases hle : n ≤ t.count
  · obtain ⟨hfire, w', hcounts', hcap'⟩ := hfull hle
    obtain ⟨hb', hlast⟩ := hb.concat_full (a := a) htally (by omega)
    rw [hfire, lastChunk, if_pos (hdvd.2 hle), hown]
    exact ⟨congrArg (fun c => [c]) hlast, w', _, hcounts', hcap', hb'⟩
  · obtain ⟨hfire, w', hcounts', hcap'⟩ := hpart hle
    rw [hfire, lastChunk, if_neg fun hd => hle (hdvd.1 hd), List.append_nil]
    exact ⟨rfl, w', _, hcounts', hcap', hb.concat_part (a := a) htally (by omega)⟩

/-- **A history** of records, polls and changes of the clock. -/
theorem play_chunks (hn : 0 < n) (events : List Event) (hq : ∀ e ∈ events, e.isQuiet = true)
    (h : l.Chunks j n past firings) :
    (l.play j events).2.Chunks j n (past ++ arrivals j.plan l.dial events)
      (firings ++ (l.play j events).1) := by
  induction events generalizing l past firings with
  | nil => simpa [play, arrivals] using h
  | cons e rest ih =>
    have hq' : ∀ e ∈ rest, e.isQuiet = true := fun e he => hq e (List.mem_cons_of_mem _ he)
    rw [play, arrivals_cons, ← step_dial, ← List.append_assoc, ← List.append_assoc]
    refine ih hq' ?_
    cases e with
    | arrival now record =>
      exact (arrive_chunks h hn now record rfl).2
    | poll now =>
      obtain ⟨w, b, hc, hcap, hb⟩ := h
      rw [poll_counting hc.windows]
      refine ⟨w, b, ⟨hc.windows, hc.ready, hc.opened, hc.holds.congr rfl, hc.below⟩, hcap, ?_⟩
      simpa [arrivals] using hb
    | trigger => cases hq _ List.mem_cons_self
    | discard => cases hq _ List.mem_cons_self

/-- The number of open windows is that of the groups with arrivals outside full chunks. -/
theorem Chunks.count (h : l.Chunks j n past firings) : l.windows.count =
    ((Groups.collect j.plan.groupKey (past.map Arrival.record)).filter
      fun g => g.2.length % n ≠ 0).length := by
  obtain ⟨w, b, hc, -, hb⟩ := h
  have hapart := Groups.collect_apart j.plan.groupKey (past.map Arrival.record)
  have hcount : l.windows.count = b.length := by
    rw [hc.windows]
    simp [OpenWindows.count, OpenWindows.windows, hc.opened, Book.states]
  rw [hcount]
  refine hb.apart.length_eq (hapart.filter _) fun key => ?_
  -- a group is open exactly if something is left of its arrivals
  have hopen : (b.get? key).isSome = true ↔ (j.plan.own key past).length % n ≠ 0 := by
    rw [← length_leftover, ← hb.open_eq key]
    cases hg : b.get? key with
    | none => simp [Book.content_of_none hg]
    | some v =>
      obtain ⟨k, hmem⟩ := Groups.mem_of_get? hg
      simpa [Book.content_of_some hg] using hc.holds.filled v (List.mem_map_of_mem hmem)
  have hlength :
      (((Groups.collect j.plan.groupKey (past.map Arrival.record)).get? key).getD []).length =
        (j.plan.own key past).length := by
    rw [Groups.get?_collect, List.filter_map, List.length_map, Plan.own_eq]
    exact congrArg List.length (List.filter_congr fun a _ => GroupKey.same_comm _ _)
  have hfilter := hapart.get?_filter key fun g => decide (g.length % n ≠ 0)
  rw [Bool.eq_iff_iff, hopen, hfilter, ← hlength]
  cases (Groups.collect j.plan.groupKey (past.map Arrival.record)).get? key with
  | none => simp
  | some g => by_cases hd : g.length % n = 0 <;> simp [hd, Option.filter_some]

end Ledger

/-- The batch of a window that counted these arrivals, which are of one group. -/
def Plan.chunkBatch (p : Plan) (substitute : Substitute) (accs : List Accumulator)
    (as : List Arrival) : Batch :=
  p.groupBatch substitute accs (countedBounds as) (as.map Arrival.record)

namespace WindowedRun

/-- **Counting is chunking, group by group.**  A history of records, polls and changes of the
    clock succeeds.  Every window that fired has a group, and those of a group are the full
    chunks of its arrivals, each with this group alone; the open windows are those of the groups
    with arrivals left.  After any such history a poll fires nothing, and a record fires the
    chunk of its group that it completes, and nothing if it completes none. -/
theorem play_counting {p : Plan} {config : Config} {accs : List Accumulator}
    (hp : p.newAccumulators = .ok accs) {n : Nat} (hn : 0 < n) {events : List Event}
    (hq : ∀ e ∈ events, e.isQuiet = true) :
    ∃ (chunks : List (List Arrival)) (r : WindowedRun),
      (start p (.counting n) config).play events =
        .ok (chunks.map (p.chunkBatch config.substitute accs), r) ∧
      (∀ chunk ∈ chunks, ∃ key : GroupKey, p.touches key chunk = true) ∧
      (∀ key : GroupKey,
        chunks.filter (p.touches key) = fullChunks n (p.own key (arrivals p {} events))) ∧
      r.stats.opened =
        ((Groups.collect p.groupKey ((arrivals p {} events).map Arrival.record)).filter
          fun g => g.2.length % n ≠ 0).length ∧
      (∀ now, (r.poll now).1 = []) ∧
      ∀ now record,
        ∃ s, r.process now record = .ok ((lastChunk n (p.own (p.groupKey record)
          (arrivals p {} (events ++ [.arrival now record])))).map
            (p.chunkBatch config.substitute accs), s) := by
  let j : Job := ⟨p, config.substitute, config.lateness, accs, hp⟩
  let l : Ledger := { windows := .ofSpec (.counting n) }
  have hstart : l.Chunks j n [] [] := by
    refine ⟨.ofCapacity n, [], ⟨rfl, rfl, rfl, ⟨List.nodup_nil, ?_, ?_, fun _ _ => rfl⟩, ?_⟩,
      Nat.max_eq_right hn, .nil p n⟩
    all_goals exact fun _ hv => absurd hv List.not_mem_nil
  obtain ⟨r, hplay, hr⟩ := play_follows events (start_follows (.counting n) config j rfl rfl)
  have hl := Ledger.play_chunks hn events hq hstart
  rw [List.nil_append, List.nil_append] at hl
  obtain ⟨w, b, hc, -, hb⟩ := id hl
  refine ⟨(l.play j events).1.map Firing.arrivals, r, ?_, fun chunk hc => ?_, hb.fired_eq, ?_,
    fun now => ?_, fun now record => ?_⟩
  · rw [hplay, Job.batches_ofGroup hb.made]
    rfl
  · obtain ⟨f, hf, rfl⟩ := List.mem_map.1 hc
    exact (hb.made f hf).touched
  · rw [stats, hr.windows]
    exact hl.count
  · obtain ⟨s, hpoll, -⟩ := poll_follows hr now
    rw [hpoll, Ledger.poll_counting hc.windows]
    rfl
  · obtain ⟨s, hprocess, -⟩ := process_follows hr now record
    obtain ⟨hfired, w', b', -, -, hb'⟩ := Ledger.arrive_chunks hl hn now record rfl
    refine ⟨s, ?_⟩
    rw [hprocess, Job.batches_ofGroup fun f hf => hb'.made f (List.mem_append_right _ hf), hfired]
    rw [show arrivals p {} (events ++ [.arrival now record]) = _ from
      Ledger.arrivals_append j l events [.arrival now record]]
    rfl

/-- The first key has a full chunk of two records, and the next record of the second one fills
    the window that is open. -/
theorem play_counting_interleaved :
    ∃ (chunks : List (List Arrival)) (r : WindowedRun),
      (start .collectByKey (.counting 2) {}).play Event.interleaved =
        .ok (chunks.map (Plan.collectByKey.chunkBatch .null [.collect []]), r) ∧
      (∀ key : GroupKey, chunks.filter (Plan.collectByKey.touches key) =
        fullChunks 2 (Plan.collectByKey.own key (arrivals .collectByKey {} Event.interleaved))) ∧
      chunks.length = 1 ∧ r.stats.opened = 1 ∧
      ∃ made s, r.process 0 (.keyed 2 4 9) = .ok (made, s) ∧ made.length = 1 := by
  obtain ⟨chunks, r, hplay, -, hchunks, -, -, hnext⟩ := @play_counting .collectByKey {} [.collect []]
    rfl 2 (by decide) Event.interleaved (by decide)
  have hrun : ((start .collectByKey (.counting 2) {}).play Event.interleaved).toOption.map
      (fun y => (y.1.length, y.2.stats.opened)) = some (1, 1) := by
    decide +kernel
  rw [hplay] at hrun
  obtain ⟨hlength, hopen⟩ := Prod.mk.inj (Option.some.inj hrun)
  obtain ⟨s, hprocess⟩ := hnext 0 (.keyed 2 4 9)
  have hown : (lastChunk 2 (Plan.collectByKey.own (Plan.collectByKey.groupKey (.keyed 2 4 9))
      (arrivals .collectByKey {} (Event.interleaved ++ [.arrival 0 (.keyed 2 4 9)])))).length = 1 := by
    decide +kernel
  exact ⟨chunks, r, hplay, hchunks, by rwa [List.length_map] at hlength, hopen, _, s, hprocess,
    by rw [List.length_map, hown]⟩

end WindowedRun

end StreamSql
