/-
  Keys of groups as an equivalence.

  `GroupKey.same` compares digests and then values, and values as keys: floats by their bits,
  maps name by name.  As the values of a key are proper, this is an equivalence, and the digest
  never decides against the values (`same_iff`).  The groups of a table whose keys are all
  different (`Groups.Apart`) are then those of a map: `get?_insert`, `get?_erase`,
  `get?_filter`.
-/
import Mathlib.Data.List.Perm.Subperm
import Mathlib.Data.List.Sort
import StreamSql.Proofs.Grouping

namespace StreamSql

namespace Table

variable {α : Type}

theorem mem_of_get? {t : Table α} {name : String} {value : α} (h : t.get? name = some value) :
    (name, value) ∈ t := by
  induction t with
  | nil => cases h
  | cons row rest ih =>
    rw [get?] at h
    split at h
    · next hn => obtain rfl := Option.some.inj h; exact hn ▸ List.mem_cons_self
    · exact List.mem_cons_of_mem _ (ih h)

/-- Where no name stands twice, every row is found under its name. -/
theorem get?_of_mem {t : Table α} (hn : (t.map Prod.fst).Nodup) {row : String × α}
    (h : row ∈ t) : t.get? row.1 = some row.2 := by
  induction t with
  | nil => cases h
  | cons first rest ih =>
    obtain ⟨hfirst, hrest⟩ := List.nodup_cons.1 hn
    rcases List.mem_cons.1 h with rfl | h
    · exact if_pos rfl
    · have hne : first.1 ≠ row.1 := fun he => hfirst (he ▸ List.mem_map_of_mem h)
      exact (if_neg hne).trans (ih hrest h)

/-- Rows in the order of their names do not depend on the order in which they were. -/
theorem sorted_eq_of_perm {t u : Table α} (hn : (t.map Prod.fst).Nodup) (h : t.Perm u) :
    t.sorted = u.sorted := by
  have hsorted : ∀ v : Table α, v.sorted.Pairwise fun a b => a.1 ≤ b.1 := fun v => by
    have hpair := @List.pairwise_mergeSort _ (fun a b : String × α => decide (a.1 ≤ b.1))
      (fun a b c hab hbc => by
        simp only [decide_eq_true_eq] at *
        exact String.le_trans hab hbc)
      (fun a b => by simpa using String.le_total a.1 b.1) v
    exact hpair.imp of_decide_eq_true
  refine List.Perm.eq_of_pairwise (fun a b ha hb hab hba => ?_) (hsorted t) (hsorted u)
    ((List.mergeSort_perm t _).trans (h.trans (List.mergeSort_perm u _).symm))
  have ha' : a ∈ t := (List.mergeSort_perm t _).mem_iff.1 ha
  have hb' : b ∈ t := h.mem_iff.2 ((List.mergeSort_perm u _).mem_iff.1 hb)
  exact List.inj_on_of_nodup_map hn ha' hb' (String.le_antisymm hab hba)

end Table

namespace Value

/-! ## Values as keys -/

theorem keyEqItems_iff {as bs : List Value} :
    keyEqItems as bs = true ↔ as.length = bs.length ∧
      ∀ (i : Nat) (ha : i < as.length) (hb : i < bs.length), keyEq as[i] bs[i] = true := by
  induction as generalizing bs with
  | nil => cases bs <;> simp [keyEqItems]
  | cons a as ih =>
    cases bs with
    | nil => simp [keyEqItems]
    | cons b bs =>
      rw [keyEqItems, Bool.and_eq_true_iff, ih]
      constructor
      · rintro ⟨hab, hlength, h⟩
        refine ⟨congrArg (· + 1) hlength, fun i ha hb => ?_⟩
        cases i with
        | zero => exact hab
        | succ i => exact h i (Nat.lt_of_succ_lt_succ ha) (Nat.lt_of_succ_lt_succ hb)
      · rintro ⟨hlength, h⟩
        exact ⟨h 0 (Nat.succ_pos _) (Nat.succ_pos _), Nat.succ.inj hlength, fun i ha hb =>
          h (i + 1) (Nat.succ_lt_succ ha) (Nat.succ_lt_succ hb)⟩

theorem keyEqFields_iff {as bs : Table Value} :
    keyEqFields as bs = true ↔ ∀ row ∈ as, ∃ b, bs.get? row.1 = some b ∧ keyEq row.2 b = true := by
  induction as with
  | nil => simp [keyEqFields]
  | cons row rest ih =>
    rw [keyEqFields, Bool.and_eq_true_iff, ih, List.forall_mem_cons]
    refine and_congr_left fun _ => ?_
    cases bs.get? row.1 <;> simp

theorem keyEq_array {as bs : List Value} :
    keyEq (.array as) (.array bs) = true ↔ keyEqItems as bs = true := by
  rw [keyEq]

theorem keyEq_map {as bs : Table Value} : keyEq (.map as) (.map bs) = true ↔
    as.length = bs.length ∧ ∀ row ∈ as, ∃ b, bs.get? row.1 = some b ∧ keyEq row.2 b = true := by
  rw [keyEq, Bool.and_eq_true_iff, keyEqFields_iff, decide_eq_true_iff]

/-- Floats are the same exactly if they are written with the same bits. -/
theorem sameBits_iff {x y : Double} : sameBits x y = true ↔ floatKeyBits x = floatKeyBits y := by
  have hnan : ∀ z : Double, z.isNaN = false → z.bits ≠ 0x7FF8000000000000 := fun z hz he => by
    rw [show z = ⟨0x7FF8000000000000⟩ from congrArg Double.mk he] at hz
    exact absurd hz (by decide)
  rw [sameBits, Bool.or_eq_true, Bool.and_eq_true_iff, beq_iff_eq, floatKeyBits, floatKeyBits]
  cases hx : x.isNaN with
  | false =>
    cases hy : y.isNaN with
    | false => simp
    | true =>
      have hne : x.bits ≠ y.bits := fun he => by
        rw [show x = y from congrArg Double.mk he, hy] at hx
        cases hx
      simpa [hne] using hnan x hx
  | true =>
    cases hy : y.isNaN with
    | false =>
      have hne : x.bits ≠ y.bits := fun he => by
        rw [show x = y from congrArg Double.mk he, hy] at hx
        cases hx
      simpa [hne] using (hnan y hy).symm
    | true => simp

/-- The key of a value is its own. -/
theorem keyEq_refl {a : Value} (h : a.Proper) : keyEq a a = true := by
  induction h with
  | integer | text | boolean => simp [keyEq]
  | float => simp [keyEq, sameBits]
  | null => rfl
  | array _ ih =>
    exact keyEq_array.2 (keyEqItems_iff.2 ⟨rfl, fun i hi _ => ih _ (List.getElem_mem hi)⟩)
  | map names _ ih =>
    exact keyEq_map.2 ⟨rfl, fun row hrow => ⟨row.2, Table.get?_of_mem names hrow, ih row hrow⟩⟩

/-- Maps that are equal as keys have the same names. -/
theorem perm_names {as bs : Table Value} (names : (as.map Prod.fst).Nodup)
    (h : keyEq (.map as) (.map bs) = true) : (as.map Prod.fst).Perm (bs.map Prod.fst) := by
  obtain ⟨hlength, hrows⟩ := keyEq_map.1 h
  refine (List.subperm_of_subset names fun name hname => ?_).perm_of_length_le (by simp [hlength])
  obtain ⟨row, hrow, rfl⟩ := List.mem_map.1 hname
  obtain ⟨b, hb, -⟩ := hrows row hrow
  exact List.mem_map.2 ⟨(row.1, b), Table.mem_of_get? hb, rfl⟩

theorem keyEq_symm {a b : Value} (ha : a.Proper) (hb : b.Proper) (h : keyEq a b = true) :
    keyEq b a = true := by
  induction ha generalizing b with
  | integer | text | boolean | null => cases hb <;> simp_all [keyEq]
  | float =>
    cases hb with
    | float => rw [keyEq, sameBits_iff] at *; exact h.symm
    | _ => simp [keyEq] at h
  | array _ ih =>
    cases hb with
    | array hbs =>
      obtain ⟨hlength, hitems⟩ := keyEqItems_iff.1 (keyEq_array.1 h)
      exact keyEq_array.2 (keyEqItems_iff.2 ⟨hlength.symm, fun i hb ha =>
        ih _ (List.getElem_mem ha) (hbs _ (List.getElem_mem hb)) (hitems i ha hb)⟩)
    | _ => simp [keyEq] at h
  | map names _ ih =>
    cases hb with
    | map names' hbs =>
      have hperm := perm_names names h
      obtain ⟨hlength, hrows⟩ := keyEq_map.1 h
      refine keyEq_map.2 ⟨hlength.symm, fun row hrow => ?_⟩
      -- the name stands in both maps, and in each of them once
      obtain ⟨⟨name, a⟩, hmem, rfl⟩ := List.mem_map.1 (hperm.mem_iff.2 (List.mem_map_of_mem hrow))
      obtain ⟨b, hget, hab⟩ := hrows _ hmem
      obtain rfl := Option.some.inj ((Table.get?_of_mem names' hrow).symm.trans hget)
      exact ⟨a, Table.get?_of_mem names hmem, ih _ hmem (hbs _ hrow) hab⟩
    | _ => simp [keyEq] at h

theorem keyEq_trans {a b c : Value} (ha : a.Proper) (h : keyEq a b = true)
    (h' : keyEq b c = true) : keyEq a c = true := by
  induction ha generalizing b c with
  | integer | text | boolean | null => cases b <;> cases c <;> simp_all [keyEq]
  | float =>
    cases b <;> cases c <;> simp only [keyEq, Bool.false_eq_true, sameBits_iff] at h h' ⊢
    exact h.trans h'
  | array _ ih =>
    cases b with
    | array bs =>
      cases c with
      | array cs =>
        obtain ⟨hlength, hitems⟩ := keyEqItems_iff.1 (keyEq_array.1 h)
        obtain ⟨hlength', hitems'⟩ := keyEqItems_iff.1 (keyEq_array.1 h')
        exact keyEq_array.2 (keyEqItems_iff.2 ⟨hlength.trans hlength', fun i ha hc =>
          ih _ (List.getElem_mem ha) (hitems i ha (hlength ▸ ha)) (hitems' i (hlength ▸ ha) hc)⟩)
      | _ => simp [keyEq] at h'
    | _ => simp [keyEq] at h
  | map names _ ih =>
    cases b with
    | map bs =>
      cases c with
      | map cs =>
        obtain ⟨hlength, hrows⟩ := keyEq_map.1 h
        obtain ⟨hlength', hrows'⟩ := keyEq_map.1 h'
        refine keyEq_map.2 ⟨hlength.trans hlength', fun row hrow => ?_⟩
        obtain ⟨b, hb, hab⟩ := hrows row hrow
        obtain ⟨c, hc, hbc⟩ := hrows' _ (Table.mem_of_get? hb)
        exact ⟨c, hc, ih row hrow hab hbc⟩
      | _ => simp [keyEq] at h'
    | _ => simp [keyEq] at h

/-! ## Digests -/

theorem digestItemsOfList_eq (values : List Value) :
    digestItemsOfList values = values.flatMap digestItems := by
  induction values with
  | nil => simp [digestItemsOfList]
  | cons v rest ih => rw [digestItemsOfList, ih, List.flatMap_cons]

theorem digestRows_eq (fields : Table Value) :
    digestRows fields = fields.map fun row => (row.1, row.2.digestItems) := by
  induction fields with
  | nil => simp [digestRows]
  | cons row rest ih => rw [digestRows, ih, List.map_cons]

theorem digestRows_sorted {as bs : Table Value} (names : (as.map Prod.fst).Nodup)
    (h : keyEq (.map as) (.map bs) = true)
    (ih : ∀ row ∈ as, ∀ b, (row.1, b) ∈ bs → keyEq row.2 b = true →
      row.2.digestItems = b.digestItems) :
    (digestRows as).sorted = (digestRows bs).sorted := by
  obtain ⟨hlength, hrows⟩ := keyEq_map.1 h
  have hnames : ((digestRows as).map Prod.fst).Nodup := by
    rw [digestRows_eq, List.map_map]
    exact names
  refine Table.sorted_eq_of_perm hnames ((List.subperm_of_subset hnames.of_map fun item hitem => ?_)
    |>.perm_of_length_le (by simp [digestRows_eq, hlength]))
  rw [digestRows_eq] at hitem ⊢
  obtain ⟨row, hrow, rfl⟩ := List.mem_map.1 hitem
  obtain ⟨b, hb, hab⟩ := hrows row hrow
  have hmem := Table.mem_of_get? hb
  exact List.mem_map.2 ⟨_, hmem, by rw [ih row hrow b hmem hab]⟩

theorem flatMap_digestItems {as bs : List Value} (h : keyEqItems as bs = true)
    (ih : ∀ a ∈ as, ∀ b ∈ bs, keyEq a b = true → a.digestItems = b.digestItems) :
    as.flatMap digestItems = bs.flatMap digestItems := by
  obtain ⟨hlength, hitems⟩ := keyEqItems_iff.1 h
  have hmap : as.map digestItems = bs.map digestItems :=
    List.ext_getElem (by simp [hlength]) fun i ha hb => by
      rw [List.length_map] at ha hb
      simpa using ih _ (List.getElem_mem ha) _ (List.getElem_mem hb) (hitems i ha hb)
  rw [List.flatMap_def, hmap, ← List.flatMap_def]

/-- **Equal keys are written alike.** -/
theorem digestItems_eq {a b : Value} (ha : a.Proper) (hb : b.Proper) (h : keyEq a b = true) :
    a.digestItems = b.digestItems := by
  induction ha generalizing b with
  | integer | text | boolean | null => cases hb <;> simp_all [keyEq, digestItems]
  | float =>
    cases hb with
    | float => rw [keyEq, sameBits_iff] at h; rw [digestItems, digestItems, h]
    | _ => simp [keyEq] at h
  | array _ ih =>
    cases hb with
    | array hbs =>
      have hitems := keyEq_array.1 h
      rw [digestItems, digestItems, digestItemsOfList_eq, digestItemsOfList_eq,
        (keyEqItems_iff.1 hitems).1,
        flatMap_digestItems hitems fun a ha b hb => ih a ha (hbs b hb)]
    | _ => simp [keyEq] at h
  | map names _ ih =>
    cases hb with
    | map names' hbs =>
      rw [digestItems, digestItems, (keyEq_map.1 h).1,
        digestRows_sorted names h fun row hrow b hb => ih row hrow (hbs _ hb)]
    | _ => simp [keyEq] at h

theorem digestItemsOfList_congr {as bs : List Value} (has : ∀ v ∈ as, v.Proper)
    (hbs : ∀ v ∈ bs, v.Proper) (h : keyEqItems as bs = true) :
    digestItemsOfList as = digestItemsOfList bs := by
  rw [digestItemsOfList_eq, digestItemsOfList_eq,
    flatMap_digestItems h fun a ha b hb => digestItems_eq (has a ha) (hbs b hb)]

end Value

/-! ## Keys of groups -/

namespace GroupKey

variable {a b c : GroupKey}

/-- **Two keys are of one group** exactly if their values are equal as keys. -/
theorem same_iff : a.same b = true ↔ Value.keyEqItems a.values b.values = true := by
  rw [same, Bool.and_eq_true_iff, and_iff_right_iff_imp]
  intro h
  rw [beq_iff_eq, a.digest_eq, b.digest_eq, Value.digestOfList, Value.digestOfList,
    Value.digestItemsOfList_congr a.proper b.proper h]

theorem same_refl (a : GroupKey) : a.same a = true :=
  same_iff.2 (Value.keyEq_array.1 (Value.keyEq_refl (.array a.proper)))

theorem same_symm (h : a.same b = true) : b.same a = true :=
  same_iff.2 (Value.keyEq_array.1 (Value.keyEq_symm (.array a.proper) (.array b.proper)
    (Value.keyEq_array.2 (same_iff.1 h))))

theorem same_comm (a b : GroupKey) : a.same b = b.same a :=
  Bool.eq_iff_iff.2 ⟨same_symm, same_symm⟩

theorem same_trans (h : a.same b = true) (h' : b.same c = true) : a.same c = true :=
  same_iff.2 (Value.keyEq_array.1 (Value.keyEq_trans (.array a.proper)
    (Value.keyEq_array.2 (same_iff.1 h)) (Value.keyEq_array.2 (same_iff.1 h'))))

/-- Keys of one group are of the same groups. -/
theorem same_congr (h : a.same b = true) (c : GroupKey) : a.same c = b.same c :=
  Bool.eq_iff_iff.2 ⟨same_trans (same_symm h), same_trans h⟩

end GroupKey

/-! ## Tables by group -/

namespace Groups

variable {α : Type}

theorem get?_eq_none_iff {t : Groups α} {key : GroupKey} :
    t.get? key = none ↔ ∀ row ∈ t, row.1.same key = false := by
  induction t with
  | nil => simp
  | cons row rest ih =>
    rw [get?, List.forall_mem_cons, ← ih]
    by_cases hr : row.1.same key = true <;> simp [hr]

theorem same_of_get? {t : Groups α} {key : GroupKey} {value : α} (h : t.get? key = some value) :
    ∃ row ∈ t, row.1.same key = true ∧ row.2 = value := by
  induction t with
  | nil => cases h
  | cons row rest ih =>
    rw [get?] at h
    split at h
    · next hr => exact ⟨row, List.mem_cons_self, hr, Option.some.inj h⟩
    · obtain ⟨row, hrow, h⟩ := ih h
      exact ⟨row, List.mem_cons_of_mem _ hrow, h⟩

theorem erase_sublist (t : Groups α) (key : GroupKey) : (t.erase key).Sublist t := by
  induction t with
  | nil => exact List.Sublist.refl _
  | cons row rest ih =>
    rw [erase]
    split
    · exact List.sublist_cons_self ..
    · exact ih.cons_cons _

theorem erase_map {β : Type} (f : α → β) (t : Groups α) (key : GroupKey) :
    erase (t.map fun row => (row.1, f row.2)) key = (t.erase key).map fun row => (row.1, f row.2) := by
  induction t with
  | nil => rfl
  | cons row rest ih =>
    by_cases hr : row.1.same key = true
    · simp [erase, hr]
    · simp only [List.map_cons, erase, hr, Bool.false_eq_true, if_false, ih]

/-- Entering a group puts its key at the end, unless it is present. -/
theorem keys_insert (t : Groups α) (key : GroupKey) (value : α) :
    (t.insert key value).map Prod.fst =
      t.map Prod.fst ++ if (t.get? key).isSome then [] else [key] := by
  cases h : t.get? key with
  | none => simp [insert_of_get?_eq_none t value h]
  | some old => simp [keys_insert_of_get? t value (h ▸ rfl : (t.get? key).isSome = true)]

/-- A group that is entered has its new value, and the others are those without it. -/
theorem insert_perm (t : Groups α) (key : GroupKey) (value : α) :
    ((t.insert key value).map Prod.snd).Perm (value :: (t.erase key).map Prod.snd) := by
  cases h : t.get? key with
  | some old => exact perm_insert h value
  | none =>
    rw [insert_of_get?_eq_none t value h, erase_of_get?_eq_none h, List.map_append]
    exact List.perm_append_comm

/-- What holds of all values holds of those that are left. -/
theorem forall_erase {t : Groups α} {P : α → Prop} (h : ∀ v ∈ t.map Prod.snd, P v)
    (key : GroupKey) : ∀ v ∈ (t.erase key).map Prod.snd, P v :=
  fun v hv => h v (((erase_sublist t key).map _).subset hv)

/-- What holds of all values and of a new one holds of all values afterwards. -/
theorem forall_insert {t : Groups α} {P : α → Prop} (h : ∀ v ∈ t.map Prod.snd, P v)
    (key : GroupKey) {value : α} (hvalue : P value) :
    ∀ v ∈ (t.insert key value).map Prod.snd, P v := fun v hv => by
  rcases List.mem_cons.1 ((insert_perm t key value).mem_iff.1 hv) with rfl | hv
  · exact hvalue
  · exact forall_erase h key v hv

/-- No key is of the group of an earlier one. -/
def Apart (t : Groups α) : Prop :=
  (t.map Prod.fst).Pairwise fun a b => a.same b = false

theorem Apart.sublist {t u : Groups α} (h : t.Apart) (hs : u.Sublist t) : u.Apart :=
  List.Pairwise.sublist (hs.map _) h

theorem Apart.insert {t : Groups α} (h : t.Apart) (key : GroupKey) (value : α) :
    (t.insert key value).Apart := by
  rw [Apart, keys_insert]
  split
  · rwa [List.append_nil]
  · next hnone =>
    rw [Option.not_isSome_iff_eq_none, get?_eq_none_iff] at hnone
    refine List.pairwise_append.2 ⟨h, List.pairwise_singleton .., fun k hk other ho => ?_⟩
    obtain ⟨row, hrow, rfl⟩ := List.mem_map.1 hk
    rw [List.mem_singleton.1 ho, hnone row hrow]

theorem apart_nil : Apart ([] : Groups α) :=
  List.Pairwise.nil

theorem apart_map {β : Type} (f : α → β) {t : Groups α} :
    Apart (t.map fun row => (row.1, f row.2)) ↔ t.Apart := by
  rw [Apart, List.map_map]
  rfl

namespace Apart

variable {t : Groups α} (h : t.Apart) {key other : GroupKey}

include h

theorem erase (key : GroupKey) : (t.erase key).Apart :=
  h.sublist (erase_sublist t key)

theorem filter (f : GroupKey × α → Bool) : Apart (t.filter f) :=
  h.sublist List.filter_sublist

omit h in
theorem tail {row : GroupKey × α} {rest : Groups α} (h : Apart (row :: rest)) : rest.Apart :=
  h.sublist (List.sublist_cons_self ..)

omit h in
/-- The group of the first row has no other row. -/
theorem get?_rest {row : GroupKey × α} {rest : Groups α} (h : Apart (row :: rest))
    (hr : row.1.same key = true) : Groups.get? rest key = none := by
  refine get?_eq_none_iff.2 fun other ho => Bool.eq_false_iff.2 fun hs => ?_
  have hsame := GroupKey.same_trans hr (GroupKey.same_symm hs)
  rw [(List.pairwise_cons.1 h).1 other.1 (List.mem_map_of_mem ho)] at hsame
  cases hsame

/-- A row is found under every key of its group. -/
theorem get?_of_mem {row : GroupKey × α} (hrow : row ∈ t) (hs : row.1.same key = true) :
    t.get? key = some row.2 := by
  induction t with
  | nil => cases hrow
  | cons first rest ih =>
    rw [Groups.get?]
    rcases List.mem_cons.1 hrow with rfl | hrow
    · rw [if_pos hs]
    · split
      · next hf =>
        have hnone := get?_eq_none_iff.1 (get?_rest h hf) row hrow
        rw [hs] at hnone
        cases hnone
      · exact ih h.tail hrow

/-- The rows of a group are at most one. -/
theorem filter_same :
    (t.filter fun row => row.1.same key).map Prod.snd = (t.get? key).toList := by
  induction t with
  | nil => rfl
  | cons row rest ih =>
    rw [List.filter_cons, Groups.get?]
    by_cases hr : row.1.same key = true
    · have hrest := ih h.tail
      rw [get?_rest h hr] at hrest
      rw [if_pos hr, if_pos hr, List.map_cons, hrest]
      rfl
    · rw [if_neg hr, if_neg hr, ih h.tail]

theorem get?_insert (value : α) :
    (t.insert key value).get? other = if key.same other then some value else t.get? other := by
  induction t with
  | nil => rfl
  | cons row rest ih =>
    by_cases hr : row.1.same key = true
    · simp only [Groups.insert, hr, if_true, Groups.get?, GroupKey.same_congr hr other]
      split <;> rfl
    · simp only [Groups.insert, hr, Bool.false_eq_true, if_false, Groups.get?, ih h.tail]
      by_cases hs : key.same other = true
      · have hne : row.1.same other = false := Bool.eq_false_iff.2 fun he =>
          hr (GroupKey.same_trans he (GroupKey.same_symm hs))
        simp [hs, hne]
      · simp [hs]

theorem get?_erase :
    (t.erase key).get? other = if key.same other then none else t.get? other := by
  induction t with
  | nil => simp [Groups.erase]
  | cons row rest ih =>
    by_cases hr : row.1.same key = true
    · have hsame := GroupKey.same_congr hr other
      simp only [Groups.erase, hr, if_true, Groups.get?, hsame]
      split
      · next hs => exact get?_rest h (hsame.trans hs)
      · rfl
    · simp only [Groups.erase, hr, Bool.false_eq_true, if_false, Groups.get?, ih h.tail]
      by_cases hs : key.same other = true
      · have hne : row.1.same other = false := Bool.eq_false_iff.2 fun he =>
          hr (GroupKey.same_trans he (GroupKey.same_symm hs))
        simp [hs, hne]
      · simp [hs]

theorem get?_filter (key : GroupKey) (f : α → Bool) :
    Groups.get? (t.filter fun row => f row.2) key = (t.get? key).filter f := by
  induction t with
  | nil => rfl
  | cons row rest ih =>
    rw [List.filter_cons, Groups.get?]
    by_cases hr : row.1.same key = true
    · have hrest := ih h.tail
      rw [get?_rest h hr] at hrest
      by_cases hf : f row.2 = true
      · simp [Groups.get?, hr, hf, Option.filter_some]
      · simp [hr, hf, hrest, Option.filter_some]
    · by_cases hf : f row.2 = true <;> simp [Groups.get?, hr, hf, ih h.tail]

/-- Keys of one group have one row. -/
theorem get?_congr (hs : key.same other = true) : t.get? key = t.get? other := by
  cases hg : t.get? key with
  | some value =>
    obtain ⟨row, hrow, hsame, rfl⟩ := same_of_get? hg
    exact (h.get?_of_mem hrow (GroupKey.same_trans hsame hs)).symm
  | none =>
    refine (get?_eq_none_iff.2 fun row hrow => ?_).symm
    rw [GroupKey.same_comm, ← GroupKey.same_congr hs, GroupKey.same_comm]
    exact get?_eq_none_iff.1 hg row hrow

omit h in
/-- Tables in which the same groups have values are of one length. -/
theorem length_eq {β : Type} {t : Groups α} {u : Groups β} (h : t.Apart) (hu : u.Apart)
    (he : ∀ key, (t.get? key).isSome = (u.get? key).isSome) : t.length = u.length := by
  induction t generalizing u with
  | nil =>
    cases u with
    | nil => rfl
    | cons row rest =>
      have hsome := he row.1
      rw [hu.get?_of_mem List.mem_cons_self (GroupKey.same_refl row.1)] at hsome
      cases hsome
  | cons row rest ih =>
    have hself := GroupKey.same_refl row.1
    obtain ⟨value, hvalue⟩ := Option.isSome_iff_exists.1
      ((he row.1).symm.trans (by simp [Groups.get?, hself]))
    have hrest := ih h.tail (hu.erase row.1) fun key => by
      rw [hu.get?_erase]
      have hkey := he key
      rw [Groups.get?] at hkey
      split at hkey
      · next hs => rw [if_pos hs, get?_rest h hs]; rfl
      · next hs => rw [if_neg hs, hkey]
    have hlength := (perm_erase hvalue).length_eq
    simp only [List.length_map, List.length_cons] at hlength
    rw [List.length_cons, hrest, hlength]

end Apart

/-! ## Collected groups -/

variable {key : α → GroupKey} {items : List α}

theorem mem_keys_collect {row : GroupKey × List α} (h : row ∈ collect key items) :
    ∃ a ∈ items, row.1 = key a := by
  induction items using collect.induct key with
  | case1 => simp [collect] at h
  | case2 b rest ih =>
    rw [collect] at h
    rcases List.mem_cons.1 h with rfl | h
    · exact ⟨b, List.mem_cons_self, rfl⟩
    · obtain ⟨a, ha, he⟩ := ih h
      exact ⟨a, List.mem_cons_of_mem _ (List.mem_filter.1 ha).1, he⟩

theorem collect_apart (key : α → GroupKey) (items : List α) : (collect key items).Apart := by
  induction items using collect.induct key with
  | case1 => exact (collect.eq_1 key).symm ▸ apart_nil
  | case2 b rest ih =>
    rw [collect]
    refine List.pairwise_cons.2 ⟨fun k hmem => ?_, ih⟩
    obtain ⟨row, hrow, rfl⟩ := List.mem_map.1 hmem
    obtain ⟨a, ha, he⟩ := mem_keys_collect hrow
    rw [he]
    exact Bool.not_eq_true' _ ▸ (List.mem_filter.1 ha).2

/-- **The items of a group** are those with a key of the group. -/
theorem get?_collect (key : α → GroupKey) (items : List α) (k : GroupKey) :
    ((collect key items).get? k).getD [] = items.filter fun a => (key a).same k := by
  induction items using collect.induct key with
  | case1 => simp [collect]
  | case2 b rest ih =>
    rw [collect, get?, List.filter_cons]
    by_cases hs : (key b).same k = true
    · rw [if_pos hs, if_pos hs, Option.getD_some]
      refine congrArg (b :: ·) (List.filter_congr fun a _ => ?_)
      rw [GroupKey.same_congr hs, GroupKey.same_comm]
    · rw [if_neg hs, if_neg hs, ih, others, List.filter_filter]
      refine List.filter_congr fun a _ => ?_
      cases hab : (key b).same (key a) with
      | false => simp
      | true => rw [← GroupKey.same_congr hab, Bool.eq_false_iff.2 hs]; rfl

end Groups

end StreamSql
