/-
  Values by the key of a group, in the order in which the groups were entered.

  * `get? t k`: the value of the group;
  * `insert t k v`: the value replaced, or a new row at the end;
  * `erase t k`: the table without the group.

  Keys are compared by `GroupKey.same`.

  Where the groups have to be taken in the order in which they came, the keys are listed beside
  the table.

  * `GroupOrder.without order k`: the list without the keys of a group;
  * `takeWhere t due order`: the listed groups leave the table whose values pass a test.
-/
import StreamSql.Window.GroupKey

namespace StreamSql

/-- Keys of groups in the order in which the groups came. -/
abbrev GroupOrder := List GroupKey

/-- The list without the keys of a group. -/
def GroupOrder.without (order : GroupOrder) (key : GroupKey) : GroupOrder :=
  order.filter fun k => !k.same key

/-- Rows of a key and a value, with no group twice. -/
abbrev Groups (α : Type) := List (GroupKey × α)

namespace Groups

variable {α : Type}

/-- The value of a group. -/
def get? : Groups α → GroupKey → Option α
  | [], _ => none
  | (k, v) :: rest, key => if k.same key then some v else get? rest key

/-- The value of a group replaced, or a new row at the end. -/
def insert : Groups α → GroupKey → α → Groups α
  | [], key, value => [(key, value)]
  | (k, v) :: rest, key, value =>
    if k.same key then (k, value) :: rest else (k, v) :: insert rest key value

/-- The table without the row of a group. -/
def erase : Groups α → GroupKey → Groups α
  | [], _ => []
  | (k, v) :: rest, key => if k.same key then rest else (k, v) :: erase rest key

/-- The listed groups whose values pass a test leave the table, one after the other: their values,
    the list of the groups that stay, and the table of these. -/
def takeWhere (t : Groups α) (due : α → Bool) : GroupOrder → List α × GroupOrder × Groups α
  | [] => ([], [], t)
  | key :: rest =>
    match t.get? key with
    | some v =>
      if due v then
        let (taken, kept, t) := (t.erase key).takeWhere due rest
        (v :: taken, kept, t)
      else
        let (taken, kept, t) := t.takeWhere due rest
        (taken, key :: kept, t)
    | none => t.takeWhere due rest

@[simp]
theorem get?_nil (key : GroupKey) : get? ([] : Groups α) key = none := rfl

theorem get?_insert_self (t : Groups α) {key : GroupKey} (value : α)
    (h : key.same key = true) : (t.insert key value).get? key = some value := by
  induction t with
  | nil => simp [insert, get?, h]
  | cons row rest ih =>
    by_cases hr : row.1.same key = true <;> simp [insert, get?, hr, ih]

/-- Entering a group that is present leaves the keys as they are. -/
theorem keys_insert_of_get? (t : Groups α) {key : GroupKey} (value : α)
    (h : (t.get? key).isSome) : (t.insert key value).map Prod.fst = t.map Prod.fst := by
  induction t with
  | nil => simp at h
  | cons row rest ih =>
    by_cases hr : row.1.same key = true
    · simp [insert, hr]
    · simp only [get?, hr, Bool.false_eq_true, if_false] at h
      simp [insert, hr, ih h]

/-- Entering a new group puts it at the end. -/
theorem insert_of_get?_eq_none (t : Groups α) {key : GroupKey} (value : α)
    (h : t.get? key = none) : t.insert key value = t ++ [(key, value)] := by
  induction t with
  | nil => rfl
  | cons row rest ih =>
    by_cases hr : row.1.same key = true
    · simp [get?, hr] at h
    · simp only [get?, hr, Bool.false_eq_true, if_false] at h
      simp [insert, hr, ih h]

end Groups

end StreamSql
