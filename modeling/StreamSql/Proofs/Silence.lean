/-
  The silence that ends a session.

  The sessions of all groups after any calls, with the times of the records that each of them
  was given.

  * `continues_iff_survives`: a record continues the session of its group just if a look at the
    clock at its time leaves the session open, except at the very end of the session, where the
    record continues what the look closes;
  * `times_unbroken`: the records of a session that are not before its first one follow one
    another within the gap; those before it join whatever the gap is, and the session has no
    longer silence than the gap if each of them came within the gap below a member.
-/
import Mathlib.Data.List.Induction
import StreamSql.Proofs.InStep

namespace StreamSql

/-! ## Calls -/

/-- A call of the policy. -/
inductive SessionCall where
  | assign (time : Int64) (key : GroupKey)
  | closeDue (now : Int64)
  | closeAll

namespace SessionWindows

/-- The sessions after a call. -/
def after (w : SessionWindows) : SessionCall → SessionWindows
  | .assign time key => (w.assign time key).2
  | .closeDue now => (w.closeDue now).2
  | .closeAll => w.closeAll.2

/-- The sessions after these calls. -/
def reached (gap : Span) (calls : List SessionCall) : SessionWindows :=
  calls.foldl after { gap }

/-- The time that a call gives to the session with a number. -/
def joined (w : SessionWindows) (id : Nat) : SessionCall → List Int64
  | .assign time key =>
    if id ∈ (w.assign time key).1.windows.map Window.id then [time] else []
  | .closeDue _ | .closeAll => []

/-- The times of the records that calls give to the session with a number, in the order in
    which they came. -/
def times (id : Nat) (w : SessionWindows) : List SessionCall → List Int64
  | [] => []
  | c :: rest => w.joined id c ++ times id (w.after c) rest

variable {w : SessionWindows}

theorem expire_gap (w : SessionWindows) (time : Int64) (key : GroupKey) :
    (w.expire time key).2.gap = w.gap := by
  unfold expire
  split
  · split <;> rfl
  · rfl

@[simp]
theorem after_gap (w : SessionWindows) (c : SessionCall) : (w.after c).gap = w.gap := by
  cases c with
  | assign time key =>
    obtain ⟨s, hjoin⟩ := exists_join (w.expire time key).2 time key
    show ((w.expire time key).2.join time key).2.gap = w.gap
    rw [hjoin, ← expire_gap w time key]
    exact openFor_gap ..
  | closeDue now => rfl
  | closeAll => rfl

theorem after_numbered (h : (OpenWindows.session w).Numbered) (c : SessionCall) :
    (OpenWindows.session (w.after c)).Numbered := by
  cases c with
  | assign time key =>
    obtain ⟨_, _, hc⟩ := OpenWindows.assign_assigning h.inOrder time key
    exact hc.numbered h
  | closeDue now => exact (OpenWindows.closeDue_closing h.inOrder now).assigning.numbered h
  | closeAll => exact (OpenWindows.closeAll_closing h.inOrder).assigning.numbered h

theorem foldl_numbered (calls : List SessionCall) (h : (OpenWindows.session w).Numbered) :
    (OpenWindows.session (calls.foldl after w)).Numbered := by
  induction calls generalizing w with
  | nil => exact h
  | cons c rest ih => exact ih (after_numbered h c)

theorem foldl_gap (calls : List SessionCall) (w : SessionWindows) :
    (calls.foldl after w).gap = w.gap := by
  induction calls generalizing w with
  | nil => rfl
  | cons c rest ih => exact (ih (w.after c)).trans (after_gap w c)

theorem reached_gap (gap : Span) (calls : List SessionCall) : (reached gap calls).gap = gap :=
  foldl_gap calls { gap }

theorem reached_numbered (gap : Span) (calls : List SessionCall) :
    (OpenWindows.session (reached gap calls)).Numbered :=
  foldl_numbered calls
    ⟨List.nodup_nil, fun _ h => absurd h List.not_mem_nil, Groups.inOrder_nil⟩

theorem times_append (id : Nat) (calls later : List SessionCall) (w : SessionWindows) :
    times id w (calls ++ later) = times id w calls ++ times id (calls.foldl after w) later := by
  induction calls generalizing w with
  | nil => rfl
  | cons c rest ih => rw [List.cons_append, times, times, ih, List.append_assoc]; rfl

/-! ## The end of a session -/

/-- A record joins this session. -/
def Continues (w : SessionWindows) (key : GroupKey) (s : Session) (time : Int64) : Prop :=
  (w.assign time key).1.windows.map Window.id = [s.id]

/-- A look at the clock leaves this session open. -/
def Survives (w : SessionWindows) (s : Session) (now : Int64) : Prop :=
  s.id ∈ (w.closeDue now).2.opened.map fun row => row.2.id

variable {key : GroupKey} {s : Session} {time : Int64}

theorem expire_of_le (hs : w.opened.get? key = some s) (hle : time ≤ s.stop w.gap) :
    w.expire time key = ([], w) := by
  rw [expire, hs]
  exact if_neg (Int64.not_lt.2 hle)

/-- A record joins the open session of its group up to the end, and with it. -/
theorem continues_iff (h : (OpenWindows.session w).Numbered)
    (hs : w.opened.get? key = some s) : w.Continues key s time ↔ time ≤ s.stop w.gap := by
  constructor
  · intro hc
    by_contra hle
    have hover : s.stop w.gap < time := Int64.not_le.1 hle
    -- the session closed, so that the record can only be in another one
    obtain ⟨_, opened, -, ha⟩ := OpenWindows.session_assigning h.inOrder time key
    have hmem : s.id ∈ (w.expire time key).1.map Window.id :=
      List.mem_map_of_mem (OpenWindows.mem_expire.2 ⟨s, hs, hover, rfl⟩)
    have hid : s.id ∈ (OpenWindows.session w).ids :=
      ha.closed.mem_iff.2 (List.mem_append_left _ hmem)
    have hassigned : s.id ∈ (w.assign time key).1.windows.map Window.id := by
      rw [hc]
      exact List.mem_cons_self
    rcases List.mem_append.1 (ha.perm.mem_iff.1 (ha.assigned _ hassigned)) with hkept | hnew
    · exact (List.nodup_append.1 (ha.closed.nodup_iff.1 h.nodup)).2.2 _ hmem _ hkept rfl
    · exact absurd (h.lt_next _ hid) (Nat.not_lt.2 (ha.fresh _ hnew).1)
  · intro hle
    rw [Continues, assign, expire_of_le hs hle]
    simp only [join_of_some hs]
    rfl

/-- A session stays open up to its end, and without it. -/
theorem survives_iff (h : (OpenWindows.session w).Numbered)
    (hs : w.opened.get? key = some s) : w.Survives s time ↔ time < s.stop w.gap := by
  obtain ⟨k, hk⟩ := Groups.mem_of_get? hs
  constructor
  · intro hopen
    by_contra hlt
    have hdue : s.stop w.gap ≤ time := Int64.not_lt.1 hlt
    have hclosed : s.id ∈ (w.closeDue time).1.map Window.id := by
      rw [closeDue_eq h.inOrder]
      exact List.mem_map_of_mem (f := Window.id) (List.mem_map_of_mem
        (List.mem_filter.2 ⟨hk, decide_eq_true hdue⟩))
    have hperm := (OpenWindows.closeDue_closing h.inOrder time).perm
    exact (List.nodup_append.1 (hperm.nodup_iff.1 h.nodup)).2.2 _ hclosed _ hopen rfl
  · intro hlt
    have hkept : (!decide (s.stop w.gap ≤ time)) = true := by
      simp [Int64.not_le.2 hlt]
    rw [Survives, closeDue_eq h.inOrder]
    exact List.mem_map_of_mem (f := fun row : GroupKey × Session => row.2.id)
      (List.mem_filter.2 ⟨hk, hkept⟩)

/-- **A record continues the session of its group just if a look at the clock at its time leaves
    the session open**, at every time but one: a record at the very end of the session continues
    it, where the look closes it. -/
theorem continues_iff_survives {gap : Span} {calls : List SessionCall}
    (h : (reached gap calls).opened.get? key = some s) (time : Int64) :
    (time ≠ s.stop gap →
      ((reached gap calls).Continues key s time ↔ (reached gap calls).Survives s time)) ∧
    (time = s.stop gap →
      (reached gap calls).Continues key s time ∧ ¬ (reached gap calls).Survives s time) := by
  rw [continues_iff (reached_numbered gap calls) h, survives_iff (reached_numbered gap calls) h,
    reached_gap, Int64.le_iff_toInt_le, Int64.lt_iff_toInt_lt]
  constructor
  · intro hne
    have hword : time.toInt ≠ (s.stop gap).toInt := fun he => hne (Int64.toInt_inj.1 he)
    omega
  · rintro rfl
    omega

/-- Sessions of 5 milliseconds, one of which has a record at 0: another at 5 continues it, and a
    look at the clock at 5 closes it. -/
theorem continues_iff_survives_boundary :
    (reached ⟨5, by decide⟩ [.assign 0 (.ofValues [.integer 1])]).opened.get?
        (.ofValues [.integer 1]) = some ⟨0, 0, 0⟩ ∧
      (reached ⟨5, by decide⟩ [.assign 0 (.ofValues [.integer 1])]).Continues
        (.ofValues [.integer 1]) ⟨0, 0, 0⟩ 5 ∧
      ¬ (reached ⟨5, by decide⟩ [.assign 0 (.ofValues [.integer 1])]).Survives ⟨0, 0, 0⟩ 5 := by
  have hopen : (reached ⟨5, by decide⟩ [.assign 0 (.ofValues [.integer 1])]).opened.get?
      (.ofValues [.integer 1]) = some ⟨0, 0, 0⟩ := by rfl
  exact ⟨hopen, (continues_iff_survives hopen 5).2 rfl⟩

end SessionWindows

/-! ## Times that are linked -/

/-- The time `b` is at most one span after `a`. -/
def Span.Within (s : Span) (a b : Int64) : Prop :=
  b.toInt - a.toInt ≤ s.millis.toInt

instance (s : Span) (a b : Int64) : Decidable (s.Within a b) :=
  inferInstanceAs (Decidable (_ ≤ _))

theorem Span.Within.mono {s : Span} {a a' b b' : Int64} (h : s.Within a b)
    (ha : a.toInt ≤ a'.toInt) (hb : b'.toInt ≤ b.toInt) : s.Within a' b' := by
  unfold Span.Within at h ⊢
  omega

/-- Every time but the first is related to an earlier one. -/
def Linked (r : Int64 → Int64 → Prop) (ts : List Int64) : Prop :=
  ∀ before time later, ts = before ++ time :: later → before ≠ [] → ∃ member ∈ before, r member time

/-- In ascending order, the times follow one another within a span. -/
def Unbroken (gap : Span) (ts : List Int64) : Prop :=
  (ts.mergeSort fun a b => a ≤ b).IsChain gap.Within

theorem linked_nil (r : Int64 → Int64 → Prop) : Linked r [] := fun before time later h =>
  absurd h.symm (List.append_ne_nil_of_right_ne_nil before (List.cons_ne_nil time later))

theorem linked_concat {r : Int64 → Int64 → Prop} {ts : List Int64} {t : Int64} :
    Linked r (ts ++ [t]) ↔ Linked r ts ∧ (ts ≠ [] → ∃ member ∈ ts, r member t) := by
  constructor
  · intro h
    refine ⟨?_, h ts t [] rfl⟩
    intro before time later he
    refine h before time (later ++ [t]) ?_
    rw [he, List.append_assoc, List.cons_append]
  · rintro ⟨h, ht⟩ before time later he hne
    rcases List.eq_nil_or_concat' later with rfl | ⟨later, last, rfl⟩
    · obtain ⟨rfl, hlast⟩ := List.append_inj' he rfl
      obtain rfl := (List.cons.inj hlast).1
      exact ht hne
    · rw [← List.cons_append, ← List.append_assoc] at he
      exact h before time later (List.append_inj' he rfl).1 hne

/-- Where some time has a property that the first one has not, a time that has it is linked to
    one that has not. -/
theorem Linked.exists_crossing {r : Int64 → Int64 → Prop} {ts : List Int64} (h : Linked r ts)
    {first : Int64} (hfirst : ts.head? = some first) {P : Int64 → Prop} (hnot : ¬ P first)
    {a : Int64} (ha : a ∈ ts) (hP : P a) :
    ∃ member ∈ ts, ∃ t ∈ ts, ¬ P member ∧ P t ∧ r member t := by
  -- by induction on the times in the order in which they came
  induction ts using List.reverseRecOn generalizing a with
  | nil => cases ha
  | append_singleton ts t ih =>
    obtain ⟨hts, ht⟩ := linked_concat.1 h
    by_cases hne : ts = []
    · -- the first time is the only one
      subst hne
      obtain rfl := List.mem_singleton.1 ha
      obtain rfl := Option.some.inj hfirst
      exact absurd hP hnot
    · have hhead : ts.head? = some first := by
        rw [← hfirst, List.head?_append_of_ne_nil ts hne]
      have hold : ∀ {a : Int64}, a ∈ ts → P a →
          ∃ member ∈ ts ++ [t], ∃ t' ∈ ts ++ [t], ¬ P member ∧ P t' ∧ r member t' := fun ha hP =>
        let ⟨member, hmember, t', ht', hcross⟩ := ih hts hhead ha hP
        ⟨member, List.mem_append_left _ hmember, t', List.mem_append_left _ ht', hcross⟩
      rcases List.mem_append.1 ha with ha | ha
      · exact hold ha hP
      · obtain rfl := List.mem_singleton.1 ha
        obtain ⟨member, hmember, hr⟩ := ht hne
        by_cases hm : P member
        · exact hold hmember hm
        · exact ⟨member, List.mem_append_left _ hmember, a, List.mem_append_right _ ha, hm, hP, hr⟩

section
variable {gap : Span} {ts : List Int64}

/-- In a list in ascending order, the time that follows is the next one. -/
theorem isChain_of_next {sorted : List Int64} (hs : sorted.Pairwise fun a b => a.toInt ≤ b.toInt)
    (h : ∀ a ∈ sorted, ∀ c ∈ sorted, a.toInt < c.toInt →
      ∃ b ∈ sorted, a.toInt < b.toInt ∧ gap.Within a b) : sorted.IsChain gap.Within := by
  rw [List.pairwise_iff_getElem] at hs
  refine List.isChain_iff_getElem.2 fun i hi => ?_
  have hle := hs i (i + 1) (Nat.lt_of_succ_lt hi) hi (Nat.lt_succ_self i)
  rcases Int.lt_or_eq_of_le hle with hlt | heq
  · obtain ⟨b, hb, hab, hwithin⟩ := h _ (List.getElem_mem (Nat.lt_of_succ_lt hi)) _
      (List.getElem_mem hi) hlt
    obtain ⟨j, hj, rfl⟩ := List.getElem_of_mem hb
    -- what comes up to the place `i` is not after the time there
    have hij : i < j := by
      by_contra hji
      rcases Nat.lt_or_eq_of_le (Nat.not_lt.1 hji) with hji | rfl
      · have hback := hs j i hj (Nat.lt_of_succ_lt hi) hji
        omega
      · omega
    refine hwithin.mono (Int.le_refl _) ?_
    rcases Nat.lt_or_eq_of_le (Nat.succ_le_of_lt hij) with hij | rfl
    · exact hs (i + 1) j hi hj hij
    · exact Int.le_refl _
  · have hpos := gap.positive
    rw [Span.Within]
    omega

/-- Times each of which has another within the span, up to the last of them, are unbroken. -/
theorem unbroken_of_next (h : ∀ a ∈ ts, ∀ c ∈ ts, a.toInt < c.toInt →
    ∃ b ∈ ts, a.toInt < b.toInt ∧ gap.Within a b) : Unbroken gap ts := by
  have hmem : ∀ {a : Int64}, a ∈ ts.mergeSort (fun a b => a ≤ b) ↔ a ∈ ts :=
    (List.mergeSort_perm ts _).mem_iff
  have hsorted : (ts.mergeSort fun a b => a ≤ b).Pairwise fun a b => a.toInt ≤ b.toInt := by
    refine (List.pairwise_mergeSort (fun a b c => ?_) (fun a b => ?_) ts).imp fun hab => ?_
    · simpa using Int64.le_trans
    · simpa using Int64.le_total a b
    · exact Int64.le_iff_toInt_le.1 (of_decide_eq_true hab)
  refine isChain_of_next hsorted fun a ha c hc hlt => ?_
  obtain ⟨b, hb, hnext⟩ := h a (hmem.1 ha) c (hmem.1 hc) hlt
  exact ⟨b, hmem.2 hb, hnext⟩

variable {first : Int64} (hfirst : ts.head? = some first) {a c : Int64}
include hfirst

/-- From the first time on there is a next one, if no time came later than a span after an
    earlier one. -/
theorem exists_next_of_le (h : Linked gap.Within ts) (ha : first.toInt ≤ a.toInt) (hc : c ∈ ts)
    (hlt : a.toInt < c.toInt) : ∃ b ∈ ts, a.toInt < b.toInt ∧ gap.Within a b := by
  obtain ⟨member, -, b, hb, hm, hab, hwithin⟩ := h.exists_crossing hfirst
    (P := fun t => a.toInt < t.toInt) (Int.not_lt.2 ha) hc hlt
  exact ⟨b, hb, hab, hwithin.mono (Int.not_lt.1 hm) (Int.le_refl _)⟩

/-- Up to the first time there is a next one, if no time came earlier than a span before one that
    had come. -/
theorem exists_next_of_lt (h : Linked (fun member time => gap.Within time member) ts)
    (ha : a ∈ ts) (hlt : a.toInt < first.toInt) :
    ∃ b ∈ ts, a.toInt < b.toInt ∧ gap.Within a b := by
  obtain ⟨b, hb, t, -, hab, ht, hwithin⟩ := h.exists_crossing hfirst
    (P := fun t => t.toInt ≤ a.toInt) (Int.not_le.2 hlt) ha (Int.le_refl _)
  exact ⟨b, hb, Int.not_le.1 hab, Span.Within.mono hwithin ht (Int.le_refl _)⟩

/-- Times none of which came later than a span after an earlier one are unbroken from the first
    one on. -/
theorem unbroken_filter (h : Linked gap.Within ts) :
    Unbroken gap (ts.filter fun t => first ≤ t) := by
  refine unbroken_of_next fun a ha c hc hlt => ?_
  obtain ⟨-, hle⟩ := List.mem_filter.1 ha
  replace hle := Int64.le_iff_toInt_le.1 (of_decide_eq_true hle)
  obtain ⟨b, hb, hab, hwithin⟩ := exists_next_of_le hfirst h hle (List.mem_filter.1 hc).1 hlt
  refine ⟨b, List.mem_filter.2 ⟨hb, decide_eq_true (Int64.le_iff_toInt_le.2 ?_)⟩, hab, hwithin⟩
  omega

end

/-- Times that came within a span of earlier ones, on either side, are unbroken. -/
theorem unbroken_of_linked {gap : Span} {ts : List Int64} (h : Linked gap.Within ts)
    (h' : Linked (fun member time => gap.Within time member) ts) : Unbroken gap ts := by
  refine unbroken_of_next fun a ha c hc hlt => ?_
  obtain ⟨first, hfirst⟩ := Option.isSome_iff_exists.1
    (List.isSome_head?.2 (List.ne_nil_of_mem ha))
  rcases Int.lt_or_le a.toInt first.toInt with hbefore | hle
  · exact exists_next_of_lt hfirst h' ha hbefore
  · exact exists_next_of_le hfirst h hle hc hlt

namespace SessionWindows

/-! ## The records of every session -/

/-- The sessions after the calls that gave these times to the sessions with the numbers. -/
structure Tracked (gap : Span) (w : SessionWindows) (past : Nat → List Int64) : Prop where
  gap_eq : w.gap = gap
  inOrder : w.opened.InOrder w.order
  fresh : ∀ id, w.next ≤ id → past id = []
  latest : ∀ s ∈ w.opened.map Prod.snd, s.latest ∈ past s.id
  linked : ∀ id, Linked gap.Within (past id)

variable {gap : Span} {w : SessionWindows} {past : Nat → List Int64}

theorem Tracked.sublist (h : Tracked gap w past) {v : SessionWindows} (hgap : v.gap = w.gap)
    (ho : v.opened.InOrder v.order) (hs : v.opened.Sublist w.opened) (hnext : v.next = w.next) :
    Tracked gap v past where
  gap_eq := hgap.trans h.gap_eq
  inOrder := ho
  fresh := hnext ▸ h.fresh
  latest := fun s hmem => h.latest s ((hs.map _).subset hmem)
  linked := h.linked

theorem expire_sublist (w : SessionWindows) (time : Int64) (key : GroupKey) :
    (w.expire time key).2.opened.Sublist w.opened := by
  unfold expire
  split
  · split
    · exact Groups.erase_sublist ..
    · exact List.Sublist.refl _
  · exact List.Sublist.refl _

/-- A session that its group has open is not over at the time of a record. -/
theorem le_stop_of_expire (h : w.opened.Apart) {key : GroupKey} {time : Int64} {s : Session}
    (hs : (w.expire time key).2.opened.get? key = some s) :
    time ≤ s.stop w.gap := by
  unfold expire at hs
  split at hs
  · next t ht =>
    split at hs
    · rw [h.get?_erase, if_pos (GroupKey.same_refl key)] at hs
      cases hs
    · next hover =>
      obtain rfl := Option.some.inj (ht.symm.trans hs)
      exact Int64.not_lt.1 hover
  · next hnone => cases hnone.symm.trans hs

/-- A record that is not past the end of a session is at most the gap after its latest one. -/
theorem within_of_le_stop {s : Session} {time : Int64} (h : time ≤ s.stop gap) :
    gap.Within s.latest time := by
  rw [Int64.le_iff_toInt_le, Session.stop, Span.after, Word.addSat, Word.toInt_nearest] at h
  have hpos := gap.positive
  have hlatest := Word.toInt_bounds s.latest
  rw [Span.Within]
  omega

/-- A session is entered, with the time of one record more. -/
theorem Tracked.insert (h : Tracked gap w past) {v : SessionWindows} {key : GroupKey}
    {s : Session} {time : Int64} (ho : v.opened.InOrder v.order) (hgap : v.gap = w.gap)
    (hopened : v.opened = w.opened.insert key s) (hnext : w.next ≤ v.next) (hid : s.id < v.next)
    (hlatest : s.latest ∈ past s.id ++ [time]) (hlinked : Linked gap.Within (past s.id ++ [time])) :
    Tracked gap v fun id => past id ++ if id = s.id then [time] else [] where
  gap_eq := hgap.trans h.gap_eq
  inOrder := ho
  fresh := by
    intro id hle
    rw [h.fresh id (Nat.le_trans hnext hle), if_neg (Nat.ne_of_gt (Nat.lt_of_lt_of_le hid hle))]
    rfl
  latest := by
    rw [hopened]
    refine Groups.forall_insert (fun t ht => List.mem_append_left _ (h.latest t ht)) key ?_
    rw [if_pos rfl]
    exact hlatest
  linked := by
    intro id
    split
    · next he =>
      subst he
      exact hlinked
    · rw [List.append_nil]
      exact h.linked id

/-- **A record** joins the session of its group, or opens one. -/
theorem Tracked.join (h : Tracked gap w past) {key : GroupKey} {time : Int64}
    (hle : ∀ s, w.opened.get? key = some s → time ≤ s.stop w.gap) :
    Tracked gap (w.join time key).2 fun id =>
      past id ++ if id ∈ (w.join time key).1.map Window.id then [time] else [] := by
  have ho := join_inOrder h.inOrder time key
  cases hs : w.opened.get? key with
  | some s =>
    obtain ⟨k, hmem⟩ := Groups.mem_of_get? hs
    have hlatest := h.latest s (List.mem_map_of_mem hmem)
    have hid : s.id < w.next := by
      by_contra hge
      rw [h.fresh _ (Nat.not_lt.1 hge)] at hlatest
      cases hlatest
    rw [join_of_some hs] at ho ⊢
    simp only [List.map_singleton, List.mem_singleton]
    -- the latest record of the session is the witness that the new one is linked
    refine h.insert ho rfl rfl (Nat.le_refl _) hid ?_ (linked_concat.2 ⟨h.linked _, fun _ =>
      ⟨s.latest, hlatest, within_of_le_stop (h.gap_eq ▸ hle s hs)⟩⟩)
    show (if s.latest ≤ time then time else s.latest) ∈ past s.id ++ [time]
    split
    · exact List.mem_append_right _ List.mem_cons_self
    · exact List.mem_append_left _ hlatest
  | none =>
    rw [join_of_none hs] at ho ⊢
    simp only [List.map_singleton, List.mem_singleton]
    refine h.insert ho rfl rfl (Nat.le_succ _) (Nat.lt_succ_self _)
      (List.mem_append_right _ List.mem_cons_self) ?_
    show Linked _ (past w.next ++ [time])
    rw [h.fresh _ (Nat.le_refl _)]
    exact linked_concat.2 ⟨linked_nil _, fun hne => absurd rfl hne⟩

/-- **One call.** -/
theorem Tracked.after (h : Tracked gap w past) (c : SessionCall) :
    Tracked gap (w.after c) fun id => past id ++ w.joined id c := by
  cases c with
  | assign time key =>
    have hexpired := h.sublist (expire_gap w time key) (expire_inOrder h.inOrder time key)
      (expire_sublist w time key) (OpenWindows.expire_perm w time key).2
    exact hexpired.join fun s hs =>
      expire_gap w time key ▸ le_stop_of_expire h.inOrder.apart hs
  | closeDue now =>
    simp only [joined, List.append_nil, SessionWindows.after, closeDue_eq h.inOrder]
    exact h.sublist rfl (h.inOrder.filter _) List.filter_sublist rfl
  | closeAll =>
    simp only [joined, List.append_nil, SessionWindows.after, closeAll, closeWhere_eq h.inOrder]
    exact h.sublist rfl (h.inOrder.filter _) List.filter_sublist rfl

/-- **Any calls.** -/
theorem Tracked.foldl (h : Tracked gap w past) (calls : List SessionCall) :
    Tracked gap (calls.foldl SessionWindows.after w) fun id => past id ++ times id w calls := by
  induction calls generalizing w past with
  | nil =>
    simp only [times, List.append_nil]
    exact h
  | cons c rest ih =>
    have hrest := ih (h.after c)
    simp only [times, ← List.append_assoc]
    exact hrest

theorem tracked_start (gap : Span) : Tracked gap { gap } fun _ => [] where
  gap_eq := rfl
  inOrder := Groups.inOrder_nil
  fresh := fun _ _ => rfl
  latest := fun _ h => absurd h List.not_mem_nil
  linked := fun _ => linked_nil _

theorem times_linked (calls : List SessionCall) (id : Nat) :
    Linked gap.Within (times id { gap } calls) := by
  have h := ((tracked_start gap).foldl calls).linked id
  rwa [List.nil_append] at h

/-- **The silences of a session.**  In ascending order, its records from the first one on follow
    one another within the gap, and all of them do if each came within the gap below a record that
    was there.  This is not checked: a session takes every record up to its end, however early. -/
theorem times_unbroken (gap : Span) (calls : List SessionCall) (id : Nat) :
    (∀ first, (times id { gap } calls).head? = some first →
      Unbroken gap ((times id { gap } calls).filter fun t => first ≤ t)) ∧
    (Linked (fun member time => gap.Within time member) (times id { gap } calls) →
      Unbroken gap (times id { gap } calls)) ∧
    ∀ key s time, (reached gap calls).opened.get? key = some s → s.id = id →
      time ≤ s.stop gap →
        times id { gap } (calls ++ [.assign time key]) = times id { gap } calls ++ [time] := by
  refine ⟨fun first hfirst => unbroken_filter hfirst (times_linked calls id),
    unbroken_of_linked (times_linked calls id), ?_⟩
  rintro key s time hs rfl hle
  have hcontinues : (reached gap calls).Continues key s time :=
    (continues_iff (reached_numbered gap calls) hs).2 ((reached_gap gap calls).symm ▸ hle)
  have hjoined : (reached gap calls).joined s.id (.assign time key) = [time] :=
    if_pos (hcontinues ▸ List.mem_cons_self)
  rw [times_append]
  show _ ++ ((reached gap calls).joined s.id (.assign time key) ++ []) = _
  rw [hjoined]
  rfl

/-- Sessions of 5 milliseconds.  After a record at 100 one at 0 joins the session, which then is
    broken from 0 to 100; one at 97 joins as well, and the session is not broken. -/
theorem times_unbroken_older :
    (times 0 { gap := ⟨5, by decide⟩ } [.assign 100 (.ofValues [.integer 1]),
        .assign 0 (.ofValues [.integer 1])] = [100, 0] ∧ ¬ Unbroken ⟨5, by decide⟩ [100, 0]) ∧
      Unbroken ⟨5, by decide⟩ (times 0 { gap := ⟨5, by decide⟩ }
        [.assign 100 (.ofValues [.integer 1]), .assign 97 (.ofValues [.integer 1])]) := by
  refine ⟨⟨?_, fun h => ?_⟩, (times_unbroken ⟨5, by decide⟩ _ 0).2.1 ?_⟩
  · have hopen : (reached ⟨5, by decide⟩ [.assign 100 (.ofValues [.integer 1])]).opened.get?
        (.ofValues [.integer 1]) = some ⟨0, 100, 100⟩ := by rfl
    exact (times_unbroken ⟨5, by decide⟩ _ 0).2.2 _ _ 0 hopen rfl (by decide)
  · simp [Unbroken, List.mergeSort, List.MergeSort.Internal.splitInTwo, Span.Within] at h
  · have htimes : times 0 { gap := ⟨5, by decide⟩ } [.assign 100 (.ofValues [.integer 1]),
        .assign 97 (.ofValues [.integer 1])] = [100, 97] := by rfl
    rw [htimes, show [(100 : Int64), 97] = [100] ++ [97] from rfl]
    exact linked_concat.2 ⟨linked_concat.2 ⟨linked_nil _, fun hne => absurd rfl hne⟩,
      fun _ => ⟨100, List.mem_cons_self, by decide⟩⟩

end SessionWindows

end StreamSql
