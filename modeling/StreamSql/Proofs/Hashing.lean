/-
  Equality of keys under any hash.

  * `Value.Rearranged`: the same value with the rows of its maps in another order, at any depth;
  * `digestItems_rearranged`: values that are equal as keys are written alike in whatever order
    their maps are gone through;
  * `GroupKey.sameBy`: keys compared by a hash first and then value by value;
  * `RowBuckets`: rows kept in buckets by a hash; a row is compared with those of its bucket;
  * `keyEq_under_any_hash`: the hash never decides against the values.
-/
import StreamSql.Proofs.Pipeline

namespace StreamSql

theorem Table.isSome_get? {α : Type} {t : Table α} {name : String} :
    (t.get? name).isSome = true ↔ name ∈ t.map Prod.fst := by
  induction t with
  | nil => simp [get?]
  | cons row rest ih =>
    rw [get?, List.map_cons, List.mem_cons, ← ih]
    by_cases hn : row.1 = name
    · simp [hn]
    · simp [hn, Ne.symm hn]

namespace Value

/-! ## Orders of rows -/

/-- The same value, with the rows of its maps in another order. -/
inductive Rearranged : Value → Value → Prop
  | refl (v : Value) : Rearranged v v
  | array {as bs : List Value} (length : as.length = bs.length)
      (items : ∀ (i : Nat) (ha : i < as.length) (hb : i < bs.length), Rearranged as[i] bs[i]) :
      Rearranged (.array as) (.array bs)
  | map {as bs : Table Value} (names : (as.map Prod.fst).Perm (bs.map Prod.fst))
      (fields : ∀ name a b, (name, a) ∈ as → (name, b) ∈ bs → Rearranged a b) :
      Rearranged (.map as) (.map bs)

variable {a a' b b' : Value}

/-- A value with its rows in another order is proper, and equal as a key. -/
theorem Rearranged.proper_and_keyEq (h : a.Rearranged a') (ha : a.Proper) :
    a'.Proper ∧ keyEq a a' = true := by
  induction h with
  | refl v => exact ⟨ha, keyEq_refl ha⟩
  | @array as bs length items ih =>
    cases ha with
    | array ha =>
      have hitems := fun i hi hi' => ih i hi hi' (ha _ (List.getElem_mem hi))
      refine ⟨.array fun v hv => ?_, keyEq_array.2 (keyEqItems_iff.2 ⟨length, fun i hi hi' =>
        (hitems i hi hi').2⟩)⟩
      obtain ⟨i, hi, rfl⟩ := List.getElem_of_mem hv
      exact (hitems i (length ▸ hi) hi).1
  | @map as bs names fields ih =>
    cases ha with
    | map hnodup ha =>
      have hnodup' := names.nodup_iff.1 hnodup
      refine ⟨.map hnodup' fun row hrow => ?_, keyEq_map.2 ⟨by simpa using names.length_eq,
        fun row hrow => ?_⟩⟩
      · obtain ⟨⟨name, v⟩, hv, rfl⟩ :=
          List.mem_map.1 (names.mem_iff.2 (List.mem_map_of_mem hrow))
        exact (ih _ v row.2 hv hrow (ha _ hv)).1
      · obtain ⟨⟨name, v⟩, hv, he⟩ :=
          List.mem_map.1 (names.mem_iff.1 (List.mem_map_of_mem hrow))
        obtain rfl : name = row.1 := he
        exact ⟨v, Table.get?_of_mem hnodup' hv, (ih _ row.2 v hrow hv (ha _ hrow)).2⟩

/-- **Equal keys are written alike**, in whatever order the rows of their maps stand. -/
theorem digestItems_rearranged (ha : a.Proper) (hb : b.Proper) (h : keyEq a b = true)
    (ha' : a.Rearranged a') (hb' : b.Rearranged b') : a'.digestItems = b'.digestItems := by
  obtain ⟨hproper, hkey⟩ := ha'.proper_and_keyEq ha
  obtain ⟨hproper', hkey'⟩ := hb'.proper_and_keyEq hb
  calc a'.digestItems
      = a.digestItems := (digestItems_eq ha hproper hkey).symm
    _ = b.digestItems := digestItems_eq ha hb h
    _ = b'.digestItems := digestItems_eq hb hproper' hkey'

theorem keyEq_float {x y : Double} :
    keyEq (.float x) (.float y) = true ↔ x.isNaN = true ∧ y.isNaN = true ∨ x = y := by
  rw [keyEq, sameBits, Bool.or_eq_true, Bool.and_eq_true_iff, beq_iff_eq]
  refine or_congr_right ⟨fun h => ?_, fun h => by rw [h]⟩
  exact congrArg Double.mk h

end Value

/-! ## Keys of groups -/

/-- The values are of one group, for a hash that is looked at first. -/
def GroupKey.sameBy (hash : List Value.DigestItem → UInt64) (as bs : List Value) : Bool :=
  hash (Value.digestItemsOfList as) == hash (Value.digestItemsOfList bs) && Value.keyEqItems as bs

/-- A hash does not keep equal keys apart. -/
theorem GroupKey.sameBy_eq (hash : List Value.DigestItem → UInt64) {as bs : List Value}
    (has : ∀ v ∈ as, v.Proper) (hbs : ∀ v ∈ bs, v.Proper) :
    sameBy hash as bs = Value.keyEqItems as bs := by
  unfold sameBy
  cases h : Value.keyEqItems as bs with
  | false => rw [Bool.and_false]
  | true => rw [Value.digestItemsOfList_congr has hbs h, beq_self_eq_true, Bool.and_true]

/-- The keys of groups are compared by one such hash. -/
theorem GroupKey.same_eq_sameBy (a b : GroupKey) :
    a.same b = sameBy (Value.digestFrom 0xCBF29CE484222325) a.values b.values := by
  rw [same, a.digest_eq, b.digest_eq]
  rfl

/-! ## Rows -/

namespace Row

/-- The rows have the same columns, with values equal as keys. -/
def Alike (a b : Row) : Prop :=
  ∀ name, Option.Rel (fun v w => Value.keyEq v w = true) (Table.get? a name) (Table.get? b name)

/-- What a row is written as, without its length. -/
def digestItems (row : Row) : List Value.DigestItem :=
  (Value.digestRows row).sorted.flatMap fun field => .text field.1 :: field.2

variable {a b c : Row}

theorem equal_symm (ha : (Value.map a).Proper) (hb : (Value.map b).Proper)
    (h : equal a b = true) : equal b a = true :=
  Value.keyEq_symm ha hb h

theorem Alike.isSome (h : a.Alike b) (name : String) :
    (Table.get? a name).isSome = (Table.get? b name).isSome := by
  have hrel := h name
  generalize Table.get? a name = v, Table.get? b name = w at hrel ⊢
  cases hrel <;> rfl

/-- Rows are equal as keys just if every column of the one is a column of the other, with a value
    that is equal as a key. -/
theorem equal_iff_alike (ha : (Value.map a).Proper) (hb : (Value.map b).Proper) :
    equal a b = true ↔ a.Alike b := by
  have names := (Value.proper_map_iff.1 ha).1
  have names' := (Value.proper_map_iff.1 hb).1
  constructor
  · intro h name
    obtain ⟨-, hrows⟩ := Value.keyEq_map.1 h
    cases hget : Table.get? a name with
    | some v =>
      obtain ⟨w, hw, hvw⟩ := hrows (name, v) (Table.mem_of_get? hget)
      rw [hw]
      exact .some hvw
    | none =>
      have hsome : (Table.get? b name).isSome = (Table.get? a name).isSome := by
        rw [Bool.eq_iff_iff, Table.isSome_get?, Table.isSome_get?]
        exact (Value.perm_names names h).mem_iff.symm
      rw [hget, Option.isSome_none, Option.isSome_eq_false_iff, Option.isNone_iff_eq_none] at hsome
      rw [hsome]
      exact .none
  · intro h
    have hperm : (a.map Prod.fst).Perm (b.map Prod.fst) := by
      refine (List.perm_ext_iff_of_nodup names names').2 fun name => ?_
      rw [← Table.isSome_get?, ← Table.isSome_get?, h.isSome]
    refine Value.keyEq_map.2 ⟨by simpa using hperm.length_eq, fun row hrow => ?_⟩
    have hrel := h row.1
    rw [Table.get?_of_mem names hrow] at hrel
    cases hw : Table.get? b row.1 with
    | none => rw [hw] at hrel; cases hrel
    | some w =>
      rw [hw] at hrel
      cases hrel with
      | some hvw => exact ⟨w, rfl, hvw⟩

theorem digestItems_congr (ha : (Value.map a).Proper) (hb : (Value.map b).Proper)
    (h : equal a b = true) : a.digestItems = b.digestItems := by
  obtain ⟨names, ha⟩ := Value.proper_map_iff.1 ha
  obtain ⟨-, hb⟩ := Value.proper_map_iff.1 hb
  rw [digestItems, digestItems, Value.digestRows_sorted names h fun row hrow w hw =>
    Value.digestItems_eq (ha row hrow) (hb _ hw)]

/-- The rows that are left when those like an earlier one are left out. -/
def firsts (rows : List Row) : List Row := rows.eraseDupsBy equal

theorem firsts_concat (rows : List Row) (row : Row) :
    firsts (rows ++ [row]) =
      if (firsts rows).any (equal row) then firsts rows else firsts rows ++ [row] :=
  eraseDupsBy_concat equal row rows

theorem firsts_subset (rows : List Row) : firsts rows ⊆ rows := by
  induction rows using List.reverseRecOn with
  | nil => exact List.Subset.refl _
  | append_singleton rows last ih =>
    rw [firsts_concat]
    split
    · exact List.subset_append_of_subset_left _ ih
    · have hold := List.subset_append_of_subset_left [last] ih
      exact List.append_subset.2 ⟨hold, List.subset_append_right _ _⟩

theorem exists_first {rows : List Row} (h : ∀ row ∈ rows, (Value.map row).Proper) :
    ∀ row ∈ rows, ∃ kept ∈ firsts rows, equal row kept = true := by
  induction rows using List.reverseRecOn with
  | nil => exact fun _ hrow => absurd hrow List.not_mem_nil
  | append_singleton rows last ih =>
    rw [firsts_concat]
    intro row hrow
    rcases List.mem_append.1 hrow with hold | hlast
    · obtain ⟨kept, hkept, hlike⟩ := ih (fun r hr => h r (List.mem_append_left _ hr)) row hold
      refine ⟨kept, ?_, hlike⟩
      split
      · exact hkept
      · exact List.mem_append_left _ hkept
    · obtain rfl := List.mem_singleton.1 hlast
      split
      · next hany => exact List.any_eq_true.1 hany
      · exact ⟨row, List.mem_append_right _ hlast, Value.keyEq_refl (h row hrow)⟩

/-- A row is like one of some rows just if it is like one that is left of them. -/
theorem any_firsts {rows : List Row} {row : Row} (h : ∀ old ∈ rows, (Value.map old).Proper)
    (hrow : (Value.map row).Proper) :
    (firsts rows).any (equal row) = rows.any (equal row) := by
  rw [Bool.eq_iff_iff, List.any_eq_true, List.any_eq_true]
  constructor
  · rintro ⟨kept, hkept, hlike⟩
    exact ⟨kept, firsts_subset rows hkept, hlike⟩
  · rintro ⟨old, hold, hlike⟩
    obtain ⟨kept, hkept, hsame⟩ := exists_first h old hold
    exact ⟨kept, hkept, Value.keyEq_trans hrow hlike hsame⟩

/-- A store that rows are entered into one by one, and that passes over those equal to one it
    holds, holds the rows that are left. -/
theorem foldl_firsts {α : Type} (enter : α → Row → α) (ofRows : List Row → α)
    (henter : ∀ rows row, (∀ old ∈ rows, (Value.map old).Proper) → (Value.map row).Proper →
      enter (ofRows rows) row =
        if rows.any (equal row) then ofRows rows else ofRows (rows ++ [row]))
    {rows : List Row} (h : ∀ row ∈ rows, (Value.map row).Proper) :
    rows.foldl enter (ofRows []) = ofRows (firsts rows) := by
  induction rows using List.reverseRecOn with
  | nil => rfl
  | append_singleton rows last ih =>
    have hrows : ∀ row ∈ rows, (Value.map row).Proper := fun row hrow =>
      h row (List.mem_append_left _ hrow)
    have hfirsts : ∀ row ∈ firsts rows, (Value.map row).Proper := fun row hrow =>
      hrows row (firsts_subset rows hrow)
    rw [List.foldl_append, ih hrows, List.foldl_cons, List.foldl_nil,
      henter _ last hfirsts (h last (by simp)), firsts_concat]
    split <;> rfl

end Row

/-! ## Rows in buckets -/

/-- Rows in buckets by a hash of what they are written as. -/
structure RowBuckets where
  hash : List Value.DigestItem → UInt64
  rows : UInt64 → List Row := fun _ => []

namespace RowBuckets

/-- The row is put into its bucket, unless an equal one is there; the answer tells whether it
    was. -/
def insert (b : RowBuckets) (row : Row) : Bool × RowBuckets :=
  let place := b.hash row.digestItems
  if (b.rows place).any fun seen => Row.equal seen row then (false, b)
  else (true, { b with rows := Function.update b.rows place (b.rows place ++ [row]) })

/-- The buckets after these rows. -/
def after (hash : List Value.DigestItem → UInt64) (rows : List Row) : RowBuckets :=
  rows.foldl (fun b row => (b.insert row).2) { hash }

/-- The buckets of rows of which no two are equal. -/
def ofRows (hash : List Value.DigestItem → UInt64) (rows : List Row) : RowBuckets :=
  { hash, rows := fun place => rows.filter fun row => hash row.digestItems = place }

variable (hash : List Value.DigestItem → UInt64) {rows : List Row} {row : Row}

/-- A row that is equal to some row is equal to one of its own bucket. -/
theorem any_bucket (h : ∀ old ∈ rows, (Value.map old).Proper) (hrow : (Value.map row).Proper) :
    (((ofRows hash rows).rows (hash row.digestItems)).any fun seen => Row.equal seen row) =
      rows.any (Row.equal row) := by
  rw [Bool.eq_iff_iff, List.any_eq_true, List.any_eq_true]
  constructor
  · rintro ⟨seen, hseen, hlike⟩
    have hmem := List.mem_of_mem_filter hseen
    exact ⟨seen, hmem, Row.equal_symm (h seen hmem) hrow hlike⟩
  · rintro ⟨old, hold, hlike⟩
    refine ⟨old, List.mem_filter.2 ⟨hold, ?_⟩, Row.equal_symm hrow (h old hold) hlike⟩
    rw [Row.digestItems_congr hrow (h old hold) hlike]
    exact decide_eq_true rfl

theorem insert_ofRows (h : ∀ old ∈ rows, (Value.map old).Proper) (hrow : (Value.map row).Proper) :
    (ofRows hash rows).insert row =
      if rows.any (Row.equal row) then (false, ofRows hash rows)
      else (true, ofRows hash (rows ++ [row])) := by
  have hany := any_bucket hash h hrow
  unfold insert
  simp only [show (ofRows hash rows).hash = hash from rfl, hany]
  split
  · rfl
  · refine congrArg (Prod.mk true) (congrArg (RowBuckets.mk hash) (funext fun place => ?_))
    simp only [ofRows, Function.update_apply, List.filter_append]
    by_cases hplace : place = hash row.digestItems
    · simp [hplace]
    · simp [hplace, Ne.symm hplace]

theorem after_eq (h : ∀ row ∈ rows, (Value.map row).Proper) :
    after hash rows = ofRows hash (Row.firsts rows) := by
  refine Row.foldl_firsts _ (ofRows hash) (fun rows row hrows hrow => ?_) h
  rw [insert_ofRows hash hrows hrow]
  split <;> rfl

end RowBuckets

namespace DistinctRows

/-- The rows met after these rows. -/
def after (rows : List Row) : DistinctRows :=
  rows.foldl (fun d row => (d.insert? row).getD d) {}

theorem after_eq {rows : List Row} (h : ∀ row ∈ rows, (Value.map row).Proper) :
    after rows = ofRows (Row.firsts rows) := by
  refine Row.foldl_firsts _ ofRows (fun rows row hrows hrow => ?_) h
  rw [insert?, contains_ofRows hrows hrow]
  split
  · rfl
  · simp [ofRows]

end DistinctRows

/-! ## Keys under any hash -/

/-- **Equality as keys is sound under any hash.**  It is an equivalence, in which all that is not
    a number is one and the zeros differ; equal values are written alike in whatever order their
    maps are gone through; two keys of groups are equal exactly if they have as many values that
    are equal one by one; and a row counts as met exactly if one with the same columns and equal
    values was entered before. -/
theorem Value.keyEq_under_any_hash :
    Equivalence (fun a b : { v : Value // v.Proper } => keyEq a.1 b.1 = true) ∧
      (∀ x y : Double,
        keyEq (.float x) (.float y) = true ↔ x.isNaN = true ∧ y.isNaN = true ∨ x = y) ∧
      (∀ a b a' b' : Value, a.Proper → b.Proper → keyEq a b = true →
        a.Rearranged a' → b.Rearranged b' → a'.digestItems = b'.digestItems) ∧
      (∀ (hash : List DigestItem → UInt64) (as bs : List Value),
        (∀ v ∈ as, v.Proper) → (∀ v ∈ bs, v.Proper) →
          (GroupKey.sameBy hash as bs = true ↔ as.length = bs.length ∧
            ∀ (i : Nat) (ha : i < as.length) (hb : i < bs.length), keyEq as[i] bs[i] = true)) ∧
      (∀ a b : GroupKey, a.same b =
        GroupKey.sameBy (digestFrom 0xCBF29CE484222325) a.values b.values) ∧
      ∀ (hash : List DigestItem → UInt64) (past : List Row) (row : Row),
        (∀ old ∈ past, (Value.map old).Proper) → (Value.map row).Proper →
          (((RowBuckets.after hash past).insert row).1 = false ↔ ∃ old ∈ past, row.Alike old) ∧
            ((DistinctRows.after past).insert? row = none ↔ ∃ old ∈ past, row.Alike old) := by
  refine ⟨⟨fun a => keyEq_refl a.2, fun {a b} h => keyEq_symm a.2 b.2 h,
    fun {a b c} h h' => keyEq_trans a.2 h h'⟩, fun x y => keyEq_float,
    fun a b a' b' ha hb h ha' hb' => digestItems_rearranged ha hb h ha' hb',
    fun hash as bs has hbs => ?_, GroupKey.same_eq_sameBy, fun hash past row hpast hrow => ?_⟩
  · rw [GroupKey.sameBy_eq hash has hbs, keyEqItems_iff]
  · have hfirsts : ∀ old ∈ Row.firsts past, (Value.map old).Proper := fun old hold =>
      hpast old (Row.firsts_subset past hold)
    have hmet : (Row.firsts past).any (Row.equal row) = true ↔ ∃ old ∈ past, row.Alike old := by
      rw [Row.any_firsts hpast hrow, List.any_eq_true]
      exact exists_congr fun old => and_congr_right fun hold =>
        Row.equal_iff_alike hrow (hpast old hold)
    rw [← hmet, RowBuckets.after_eq hash hpast, RowBuckets.insert_ofRows hash hfirsts hrow,
      DistinctRows.after_eq hpast, DistinctRows.insert?, DistinctRows.contains_ofRows hfirsts hrow]
    cases (Row.firsts past).any (Row.equal row) <;> simp

/-- Two rows with their columns in another order and with different bits for what is not a
    number. -/
theorem Value.keyEq_under_any_hash_nan :
    let row : Row := [("x", .float ⟨0x7FF8000000000001⟩), ("y", .float ⟨0⟩)]
    let other : Row := [("y", .float ⟨0⟩), ("x", .float ⟨0xFFF8000000000000⟩)]
    (Value.map row).Proper ∧ (Value.map other).Proper ∧
      GroupKey.sameBy (fun items => UInt64.ofNat items.length) [.map row] [.map other] = true ∧
      (DistinctRows.after [row]).insert? other = none ∧
      keyEq (.float ⟨0⟩) (.float ⟨0x8000000000000000⟩) = false := by
  intro row other
  have hrow : (Value.map row).Proper := .map (by decide) (by simp [row])
  have hother : (Value.map other).Proper := .map (by decide) (by simp [other])
  have hkey : keyEq (.map other) (.map row) = true := by decide
  obtain ⟨hequivalence, hfloats, -, hkeys, -, hrows⟩ := keyEq_under_any_hash
  have hkey' : keyEq (.map row) (.map other) = true :=
    hequivalence.symm (x := ⟨_, hother⟩) (y := ⟨_, hrow⟩) hkey
  refine ⟨hrow, hother, ?_, ?_, ?_⟩
  · refine (hkeys _ _ _ (by simpa using hrow) (by simpa using hother)).2 ⟨rfl, fun i hi _ => ?_⟩
    obtain rfl : i = 0 := by simpa using hi
    exact hkey'
  · refine (hrows (fun _ => 0) [row] other (by simpa using hrow) hother).2.2 ⟨row, by simp, ?_⟩
    exact (Row.equal_iff_alike hother hrow).1 hkey
  · rw [Bool.eq_false_iff, ne_eq, hfloats]
    decide

end StreamSql
