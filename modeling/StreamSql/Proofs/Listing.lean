/-
  Windows by group, and the list of their groups.

  Counting windows and sessions are kept by group, and beside them a list of the groups in the
  order in which their windows were opened.  A window that opens or closes changes both.

  * `Groups.InOrder t order`: the rows of the table stand in the order of the list; it holds at
    first (`inOrder_nil`), and entering, replacing and removing a group keep it;
  * `InOrder.takeWhere_eq`: a walk along the list takes the rows that pass the test;
  * `CountingWindows.assign_inOrder`, `closeAll_eq`: a record and the end of counting windows;
  * `SessionWindows.assign_inOrder`, `closeWhere_eq`: a record and the end of sessions.
-/
import StreamSql.Proofs.Keys
import StreamSql.Window.Opened

namespace StreamSql

/-! ## Tables and lists of groups -/

namespace Groups

variable {α : Type} {t : Groups α} {order : GroupOrder} {key : GroupKey}

/-- The rows of the table are of different groups and stand in the order of the list. -/
structure InOrder (t : Groups α) (order : GroupOrder) : Prop where
  apart : t.Apart
  keys : t.map Prod.fst = order

theorem inOrder_nil : InOrder ([] : Groups α) [] :=
  ⟨apart_nil, rfl⟩

/-- What a table loses in the place of a row is only that row. -/
theorem erase_append_cons {kept rest : Groups α} {row : GroupKey × α}
    (h : Apart (kept ++ row :: rest)) : erase (kept ++ row :: rest) row.1 = kept ++ rest := by
  induction kept with
  | nil => rw [List.nil_append, erase, if_pos (GroupKey.same_refl row.1), List.nil_append]
  | cons first kept ih =>
    have hfirst : first.1.same row.1 = false :=
      (List.pairwise_cons.1 h).1 row.1 (List.mem_map_of_mem (by simp))
    rw [List.cons_append, erase, hfirst, if_neg Bool.false_ne_true, ih h.tail, List.cons_append]

theorem keys_erase (h : t.Apart) (key : GroupKey) :
    (t.erase key).map Prod.fst = GroupOrder.without (t.map Prod.fst) key := by
  induction t with
  | nil => rfl
  | cons row rest ih =>
    rw [erase, GroupOrder.without, List.map_cons, List.filter_cons]
    by_cases hr : row.1.same key = true
    · have hrest := get?_eq_none_iff.1 (Apart.get?_rest h hr)
      have hkept : (rest.map Prod.fst).filter (fun k => !k.same key) = rest.map Prod.fst := by
        refine List.filter_eq_self.2 (List.forall_mem_map.2 fun other ho => ?_)
        rw [hrest other ho]
        rfl
      rw [hr, if_pos rfl, hkept]
      rfl
    · have hother : row.1.same key = false := Bool.eq_false_iff.2 hr
      rw [hother, if_neg Bool.false_ne_true, Bool.not_false, if_pos rfl, List.map_cons, ih h.tail]
      rfl

namespace InOrder

variable (h : t.InOrder order)

include h

/-- A group that has no row comes to the end of both. -/
theorem enter (hnew : t.get? key = none) (value : α) :
    (t.insert key value).InOrder (order ++ [key]) := by
  refine ⟨h.apart.insert key value, ?_⟩
  rw [keys_insert, hnew, h.keys]
  rfl

/-- A new value does not move a group. -/
theorem replace (hold : (t.get? key).isSome = true) (value : α) :
    (t.insert key value).InOrder order := by
  refine ⟨h.apart.insert key value, ?_⟩
  rw [keys_insert, hold, if_pos rfl, List.append_nil, h.keys]

/-- A group is taken from both. -/
theorem remove (key : GroupKey) : (t.erase key).InOrder (order.without key) := by
  refine ⟨h.apart.erase key, ?_⟩
  rw [keys_erase h.apart, h.keys]

theorem filter (f : GroupKey × α → Bool) : InOrder (t.filter f) ((t.filter f).map Prod.fst) :=
  ⟨h.apart.filter f, rfl⟩

end InOrder

/-- The walk along the rows behind those that were kept. -/
theorem takeWhere_append (kept rest : Groups α) (h : Apart (kept ++ rest)) (due : α → Bool) :
    takeWhere (kept ++ rest) due (rest.map Prod.fst) =
      ((rest.filter fun row => due row.2).map Prod.snd,
        (rest.filter fun row => !due row.2).map Prod.fst,
        kept ++ rest.filter fun row => !due row.2) := by
  induction rest generalizing kept with
  | nil => simp [takeWhere]
  | cons row rest ih =>
    have hfound : get? (kept ++ row :: rest) row.1 = some row.2 :=
      h.get?_of_mem (List.mem_append_right _ List.mem_cons_self) (GroupKey.same_refl row.1)
    rw [List.map_cons, takeWhere, hfound]
    by_cases hdue : due row.2 = true
    · have hrest := ih kept (erase_append_cons h ▸ h.erase row.1)
      simp [hdue, erase_append_cons h, hrest]
    · have hrest := ih (kept ++ [row]) (by rwa [List.append_assoc])
      rw [List.append_assoc, List.singleton_append] at hrest
      simp [hdue, hrest]

/-- **A walk along the list** takes the rows that pass the test, and the others stay in order. -/
theorem InOrder.takeWhere_eq (h : t.InOrder order) (due : α → Bool) :
    t.takeWhere due order =
      ((t.filter fun row => due row.2).map Prod.snd,
        (t.filter fun row => !due row.2).map Prod.fst, t.filter fun row => !due row.2) := by
  have hwalk := takeWhere_append [] t (by simpa using h.apart) due
  rwa [List.nil_append, List.nil_append, h.keys] at hwalk

/-! ### Groups that are entered and changed at once -/

theorem insert_insert (t : Groups α) (key : GroupKey) (old new : α) :
    (t.insert key old).insert key new = t.insert key new := by
  induction t with
  | nil => rw [insert, insert, insert, if_pos (GroupKey.same_refl key)]
  | cons row rest ih => by_cases hr : row.1.same key = true <;> simp [insert, hr, ih]

theorem erase_insert (t : Groups α) (key : GroupKey) (value : α) :
    (t.insert key value).erase key = t.erase key := by
  induction t with
  | nil => simp [insert, erase, GroupKey.same_refl]
  | cons row rest ih => by_cases hr : row.1.same key = true <;> simp [insert, erase, hr, ih]

theorem get?_insert_key (t : Groups α) (key : GroupKey) (value : α) :
    (t.insert key value).get? key = some value :=
  t.get?_insert_self value (GroupKey.same_refl key)

end Groups

/-! ## Counting windows -/

namespace CountingWindows

variable {w : CountingWindows} {key : GroupKey}

/-- A record of a group that has a window. -/
theorem assign_of_some {t : Tally} (h : w.opened.get? key = some t) (time : Int64) :
    w.assign time key = (⟨[(t.add time).window], []⟩,
      if w.capacity ≤ (t.add time).count then
        { w with
          opened := w.opened.erase key
          order := w.order.without key
          ready := w.ready ++ [(t.add time).window] }
      else
        { w with opened := w.opened.insert key (t.add time) }) := by
  have hopen : w.openFor time key = w := by rw [openFor, h]
  simp only [assign, hopen, h, complete, Groups.get?_insert_key, Groups.erase_insert]

/-- A record of a group that has none opens one. -/
theorem assign_of_none (h : w.opened.get? key = none) (time : Int64) :
    w.assign time key = (⟨[((⟨w.next, 0, time, time⟩ : Tally).add time).window], []⟩,
      if w.capacity ≤ ((⟨w.next, 0, time, time⟩ : Tally).add time).count then
        { w with
          order := (w.order ++ [key]).without key
          ready := w.ready ++ [((⟨w.next, 0, time, time⟩ : Tally).add time).window]
          next := w.next + 1 }
      else
        { w with
          opened := w.opened.insert key ((⟨w.next, 0, time, time⟩ : Tally).add time)
          order := w.order ++ [key]
          next := w.next + 1 }) := by
  simp only [assign, openFor, h, complete, Groups.get?_insert_key, Groups.insert_insert,
    Groups.erase_insert, Groups.erase_of_get?_eq_none h]

variable (h : w.opened.InOrder w.order)

include h

theorem openFor_inOrder (time : Int64) (key : GroupKey) :
    (w.openFor time key).opened.InOrder (w.openFor time key).order := by
  unfold openFor
  split
  · exact h
  · next hnew => exact h.enter hnew _

theorem complete_inOrder (key : GroupKey) :
    (w.complete key).opened.InOrder (w.complete key).order := by
  unfold complete
  split
  · exact h.remove key
  · exact h

/-- **A record** changes the windows and the list of their groups alike. -/
theorem assign_inOrder (time : Int64) (key : GroupKey) :
    (w.assign time key).2.opened.InOrder (w.assign time key).2.order := by
  have hopened := openFor_inOrder h time key
  cases hfound : (w.openFor time key).opened.get? key with
  | some t =>
    have hadded := hopened.replace (by rw [hfound]; rfl) (t.add time)
    simp only [assign, hfound]
    split
    · exact complete_inOrder hadded key
    · exact hadded
  | none => simpa only [assign, hfound] using hopened

theorem closeAll_eq : w.closeAll =
    (w.ready ++ w.opened.map fun row => row.2.window,
      { w with opened := [], order := [], ready := [] }) := by
  simp [closeAll, h.takeWhere_eq, Function.comp_def]

end CountingWindows

/-! ## Sessions -/

namespace SessionWindows

variable {w : SessionWindows} {key : GroupKey}

/-- A record of a group that has a session extends it. -/
theorem join_of_some {s : Session} (h : w.opened.get? key = some s) (time : Int64) :
    w.join time key = ([(s.extend time).window w.gap],
      { w with opened := w.opened.insert key (s.extend time) }) := by
  have hopen : w.openFor time key = w := by rw [openFor, h]
  simp only [join, hopen, h]

/-- A record of a group that has none opens one. -/
theorem join_of_none (h : w.opened.get? key = none) (time : Int64) :
    w.join time key = ([(⟨w.next, time, time⟩ : Session).window w.gap],
      { w with
        opened := w.opened.insert key ⟨w.next, time, time⟩
        order := w.order ++ [key]
        next := w.next + 1 }) := by
  have hmin : min time time = time := ite_self time
  have hmax : max time time = time := ite_self time
  have hsame : (⟨w.next, time, time⟩ : Session).extend time = ⟨w.next, time, time⟩ := by
    rw [Session.extend, hmin, hmax]
  simp only [join, openFor, h, Groups.get?_insert_key, Groups.insert_insert, hsame]

theorem openFor_gap (w : SessionWindows) (time : Int64) (key : GroupKey) :
    (w.openFor time key).gap = w.gap := by
  unfold openFor
  split <;> rfl

/-- There always is a session for a record. -/
theorem exists_join (w : SessionWindows) (time : Int64) (key : GroupKey) :
    ∃ s, w.join time key = ([s.window w.gap], { (w.openFor time key) with
      opened := w.opened.insert key s }) := by
  cases h : w.opened.get? key with
  | some s => exact ⟨_, by rw [join_of_some h, openFor, h]⟩
  | none => exact ⟨_, by rw [join_of_none h, openFor, h]⟩

variable (h : w.opened.InOrder w.order)

include h

theorem expire_inOrder (time : Int64) (key : GroupKey) :
    (w.expire time key).2.opened.InOrder (w.expire time key).2.order := by
  unfold expire
  split
  · split
    · exact h.remove key
    · exact h
  · exact h

theorem openFor_inOrder (time : Int64) (key : GroupKey) :
    (w.openFor time key).opened.InOrder (w.openFor time key).order := by
  unfold openFor
  split
  · exact h
  · next hnew => exact h.enter hnew _

theorem join_inOrder (time : Int64) (key : GroupKey) :
    (w.join time key).2.opened.InOrder (w.join time key).2.order := by
  have hopened := openFor_inOrder h time key
  cases hfound : (w.openFor time key).opened.get? key with
  | some s => simpa only [join, hfound] using hopened.replace (by rw [hfound]; rfl) (s.extend time)
  | none => simpa only [join, hfound] using hopened

omit h in
/-- **A record** changes the sessions and the list of their groups alike. -/
theorem assign_inOrder (h : w.opened.InOrder w.order) (time : Int64) (key : GroupKey) :
    (w.assign time key).2.opened.InOrder (w.assign time key).2.order :=
  join_inOrder (expire_inOrder h time key) time key

theorem closeWhere_eq (due : Session → Bool) : w.closeWhere due =
    ((w.opened.filter fun row => due row.2).map fun row => row.2.window w.gap,
      { w with
        opened := w.opened.filter fun row => !due row.2
        order := (w.opened.filter fun row => !due row.2).map Prod.fst }) := by
  simp [closeWhere, h.takeWhere_eq, Function.comp_def]

theorem closeDue_eq (now : Int64) : w.closeDue now =
    ((w.opened.filter fun row => row.2.stop w.gap ≤ now).map fun row => row.2.window w.gap,
      { w with
        opened := w.opened.filter fun row => !decide (row.2.stop w.gap ≤ now)
        order := (w.opened.filter fun row => !decide (row.2.stop w.gap ≤ now)).map Prod.fst }) :=
  closeWhere_eq h _

end SessionWindows

/-! ## Windows of any policy -/

namespace OpenWindows

/-- Where every group has windows of its own, the list of the groups is in step with them. -/
def InOrder : OpenWindows → Prop
  | aligned _ => True
  | counting w => w.opened.InOrder w.order
  | session w => w.opened.InOrder w.order

theorem ofSpec_inOrder (spec : WindowSpec) : (ofSpec spec).InOrder := by
  cases spec with
  | tumbling | sliding => trivial
  | counting | session => exact Groups.inOrder_nil

variable {w : OpenWindows} (h : w.InOrder)

include h

theorem assign_inOrder (time : Int64) (key : GroupKey) : (w.assign time key).2.InOrder := by
  cases w with
  | aligned w => trivial
  | counting w => exact CountingWindows.assign_inOrder h time key
  | session w => exact SessionWindows.assign_inOrder h time key

theorem takeReady_inOrder : w.takeReady.2.InOrder := by
  cases w with
  | aligned w => trivial
  | counting w => exact h
  | session w => exact h

theorem closeDue_inOrder (now : Int64) : (w.closeDue now).2.InOrder := by
  cases w with
  | aligned w => trivial
  | counting w => exact h
  | session w =>
    show Groups.InOrder (w.closeDue now).2.opened (w.closeDue now).2.order
    rw [SessionWindows.closeDue_eq h]
    exact h.filter _

theorem closeAll_inOrder : w.closeAll.2.InOrder := by
  cases w with
  | aligned w => trivial
  | counting w =>
    show Groups.InOrder w.closeAll.2.opened w.closeAll.2.order
    rw [CountingWindows.closeAll_eq h]
    exact Groups.inOrder_nil
  | session w =>
    show Groups.InOrder (w.closeWhere _).2.opened (w.closeWhere _).2.order
    rw [SessionWindows.closeWhere_eq h]
    exact h.filter _

end OpenWindows

end StreamSql
