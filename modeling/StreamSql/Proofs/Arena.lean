/-
  What the arena of a query holds, in terms of records.

  The groups of a window are those into which its records fall (`Contains`).  Folding a record
  in appends it to the records of the window (`fold_eq`, `foldlM_fold`), and a window that is
  removed has no records any more (`contains_erase`).
-/
import Mathlib.Tactic.Common
import StreamSql.Proofs.Grouping
import StreamSql.Run.Windowed

namespace StreamSql

namespace Arena

theorem lookup_row (k : Nat) (groups : Groups Group) (a : Arena) (id : Nat) :
    List.lookup id ((k, groups) :: a) = if id = k then some groups else a.lookup id := by
  rw [List.lookup_cons]
  by_cases h : id = k
  · simp [h]
  · rw [beq_eq_false_iff_ne.2 h, if_neg h]

theorem erase_cons (k : Nat) (groups : Groups Group) (a : Arena) (id : Nat) :
    Arena.erase ((k, groups) :: a) id = if k = id then a.erase id else (k, groups) :: a.erase id := by
  by_cases h : k = id <;> simp [erase, h]

theorem lookup_erase (a : Arena) (id other : Nat) :
    (a.erase id).lookup other = if other = id then none else a.lookup other := by
  induction a with
  | nil => simp [erase]
  | cons row rest ih =>
    obtain ⟨k, groups⟩ := row
    rw [erase_cons, lookup_row]
    by_cases hk : k = id
    · rw [if_pos hk, ih, hk]
      by_cases ho : other = id <;> simp [ho]
    · rw [if_neg hk, lookup_row, ih]
      by_cases ho : other = id
      · simp [ho, Ne.symm hk]
      · simp [ho]

theorem groups_erase (a : Arena) (id other : Nat) :
    (a.erase id).groups other = if other = id then [] else a.groups other := by
  unfold groups
  rw [lookup_erase]
  split <;> rfl

theorem groups_set (a : Arena) (id other : Nat) (groups : Groups Group) :
    (a.set id groups).groups other = if other = id then groups else a.groups other := by
  unfold Arena.groups set
  rw [List.lookup_append, lookup_erase, lookup_row]
  by_cases ho : other = id <;> simp [ho]

end Arena

namespace Plan

/-- The batch of a window with these records. -/
def batchOf (p : Plan) (substitute : Substitute) (accs : List Accumulator) (bounds : Bounds)
    (records : List Record) : Batch :=
  ⟨p.finish ((p.groupsOf accs records).filterMap fun row => p.groupRow? substitute bounds row.2),
    some bounds⟩

end Plan

/-- The groups of every window are those into which its records fall; a window without records
    has none. -/
def Arena.Contains (a : Arena) (p : Plan) (accs : List Accumulator)
    (content : Nat → List Record) : Prop :=
  ∀ id, a.groups id = p.groupsOf accs (content id)

theorem Arena.contains_erase {a : Arena} {p : Plan} {accs : List Accumulator}
    {content : Nat → List Record} (h : a.Contains p accs content) (id : Nat) :
    (a.erase id).Contains p accs fun other => if other = id then [] else content other := by
  intro other
  rw [groups_erase]
  show _ = p.groupsOf accs (if other = id then _ else _)
  by_cases ho : other = id
  · rw [if_pos ho, if_pos ho, Plan.groupsOf_nil]
  · rw [if_neg ho, if_neg ho, h other]

namespace WindowedRun

variable {r : WindowedRun} {accs : List Accumulator} {content : Nat → List Record}

theorem groupFor_eq (hp : r.plan.newAccumulators = .ok accs) (record : Record) (key : GroupKey)
    (w : Window) :
    r.groupFor record key w = .ok (((r.arena.groups w.id).get? key).getD ⟨record, accs⟩) := by
  unfold groupFor
  cases (r.arena.groups w.id).get? key with
  | some group => rfl
  | none => simp only [Plan.newGroup, hp]; rfl

/-- **A record folded into a window** stands behind the other records of the window. -/
theorem fold_eq (hp : r.plan.newAccumulators = .ok accs) (h : r.arena.Contains r.plan accs content)
    (record : Record) (w : Window) :
    ∃ a, r.fold record (r.plan.groupKey record) (r.plan.contributions record) w =
        .ok { r with arena := a } ∧
      a.Contains r.plan accs fun id => if id = w.id then content id ++ [record] else content id := by
  refine ⟨_, by rw [fold, groupFor_eq hp]; rfl, fun id => ?_⟩
  rw [Arena.groups_set]
  show _ = r.plan.groupsOf accs (if id = w.id then _ else _)
  by_cases hid : id = w.id
  · rw [if_pos hid, if_pos hid, h w.id, hid, Plan.groupsOf_concat]
  · rw [if_neg hid, if_neg hid, h id]

/-- A record folded into several windows. -/
theorem foldlM_fold (hp : r.plan.newAccumulators = .ok accs)
    (h : r.arena.Contains r.plan accs content) (record : Record) (windows : List Window) :
    ∃ a, windows.foldlM
        (fun s w => s.fold record (r.plan.groupKey record) (r.plan.contributions record) w) r =
        .ok { r with arena := a } ∧
      a.Contains r.plan accs fun id =>
        content id ++ List.replicate ((windows.map Window.id).count id) record := by
  induction windows generalizing r content with
  | nil => exact ⟨r.arena, rfl, by simpa using h⟩
  | cons w rest ih =>
    obtain ⟨a, hfold, ha⟩ := fold_eq hp h record w
    obtain ⟨b, hrest, hb⟩ := ih (r := { r with arena := a }) hp ha
    refine ⟨b, by rw [List.foldlM_cons, hfold]; exact hrest, fun id => (hb id).trans ?_⟩
    by_cases hid : id = w.id
    · simp [hid, List.replicate_succ]
    · simp [hid, Ne.symm hid]

end WindowedRun

end StreamSql
