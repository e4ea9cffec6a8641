/-
  Values whose maps name no field twice.

  A table stands for the map of its first rows, which are those that `Table.get?` finds.

  * `Value.Proper v`: no map in the value names a field twice;
  * `Value.distinct v`: the value without the rows that are never found;
  * `proper_distinct`: such a value is proper; `distinct_of_proper`: a proper value is left as
    it is.
-/
import StreamSql.Value

namespace StreamSql.Value

/-- No map in the value names a field twice. -/
inductive Proper : Value → Prop
  | integer (n : Int64) : Proper (.integer n)
  | float (x : Double) : Proper (.float x)
  | text (s : String) : Proper (.text s)
  | boolean (b : Bool) : Proper (.boolean b)
  | null : Proper .null
  | array {items : List Value} (h : ∀ v ∈ items, Proper v) : Proper (.array items)
  | map {fields : Table Value} (names : (fields.map Prod.fst).Nodup)
      (h : ∀ row ∈ fields, Proper row.2) : Proper (.map fields)

mutual

/-- The value without the rows of its maps whose names have earlier rows. -/
def distinct : Value → Value
  | array items => array (distinctItems items)
  | map fields => map (distinctFields [] fields)
  | v => v

/-- The items without such rows. -/
def distinctItems : List Value → List Value
  | [] => []
  | v :: rest => v.distinct :: distinctItems rest

/-- The rows whose names are neither among those seen nor have earlier rows. -/
def distinctFields (seen : List String) : Table Value → Table Value
  | [] => []
  | (name, v) :: rest =>
    if name ∈ seen then distinctFields seen rest
    else (name, v.distinct) :: distinctFields (name :: seen) rest

end

mutual

theorem proper_distinct : ∀ v : Value, v.distinct.Proper
  | integer n => .integer n
  | float x => .float x
  | text s => .text s
  | boolean b => .boolean b
  | null => .null
  | array items => .array (proper_distinctItems items)
  | map fields => by
    obtain ⟨hnames, -, hrows⟩ := proper_distinctFields [] fields
    exact .map hnames hrows

theorem proper_distinctItems : ∀ items : List Value, ∀ v ∈ distinctItems items, v.Proper
  | [] => fun _ h => absurd h List.not_mem_nil
  | v :: rest => List.forall_mem_cons.2 ⟨proper_distinct v, proper_distinctItems rest⟩

theorem proper_distinctFields (seen : List String) : ∀ fields : Table Value,
    ((distinctFields seen fields).map Prod.fst).Nodup ∧
      (∀ name ∈ (distinctFields seen fields).map Prod.fst, name ∉ seen) ∧
      ∀ row ∈ distinctFields seen fields, row.2.Proper
  | [] =>
    ⟨List.nodup_nil, fun _ h => absurd h List.not_mem_nil,
      fun _ h => absurd h List.not_mem_nil⟩
  | (name, v) :: rest => by
    rw [distinctFields]
    split
    · exact proper_distinctFields seen rest
    · next hname =>
      obtain ⟨hnames, hseen, hrows⟩ := proper_distinctFields (name :: seen) rest
      refine ⟨List.nodup_cons.2 ⟨fun hmem => hseen name hmem List.mem_cons_self, hnames⟩, ?_,
        List.forall_mem_cons.2 ⟨proper_distinct v, hrows⟩⟩
      refine List.forall_mem_cons.2 ⟨hname, fun other hother => ?_⟩
      exact fun hmem => hseen other hother (List.mem_cons_of_mem _ hmem)

end

mutual

/-- A proper value is left as it is. -/
theorem distinct_of_proper : ∀ {v : Value}, v.Proper → v.distinct = v
  | integer _, _ | float _, _ | text _, _ | boolean _, _ | null, _ => rfl
  | array _, .array h => congrArg array (distinctItems_of_proper h)
  | map _, .map names h =>
    congrArg map (distinctFields_of_proper names (fun _ _ => List.not_mem_nil) h)

theorem distinctItems_of_proper : ∀ {items : List Value}, (∀ v ∈ items, v.Proper) →
    distinctItems items = items
  | [], _ => rfl
  | v :: rest, h => by
    obtain ⟨hv, hrest⟩ := List.forall_mem_cons.1 h
    rw [distinctItems, distinct_of_proper hv, distinctItems_of_proper hrest]

theorem distinctFields_of_proper {seen : List String} : ∀ {fields : Table Value},
    (fields.map Prod.fst).Nodup → (∀ name ∈ fields.map Prod.fst, name ∉ seen) →
      (∀ row ∈ fields, row.2.Proper) → distinctFields seen fields = fields
  | [], _, _, _ => rfl
  | (name, v) :: rest, hnames, hseen, hrows => by
    obtain ⟨hnew, hnames⟩ := List.nodup_cons.1 hnames
    obtain ⟨hname, hseen⟩ := List.forall_mem_cons.1 hseen
    obtain ⟨hv, hrows⟩ := List.forall_mem_cons.1 hrows
    rw [distinctFields, if_neg hname, distinct_of_proper hv]
    rw [distinctFields_of_proper hnames (fun other hother hmem => ?_) hrows]
    rcases List.mem_cons.1 hmem with rfl | hmem
    · exact hnew hother
    · exact hseen other hother hmem

end

end StreamSql.Value
