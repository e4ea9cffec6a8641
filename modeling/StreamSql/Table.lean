/-
  Tables from names to values, in the order in which the names were first entered.

  * `get? t k`: the value under `k`;
  * `insert t k v`: the value under `k` replaced, or a new row at the end
    (`get?_insert_self`, `get?_insert_of_ne`);
  * `sorted t`: the rows in the order of their names.
-/

namespace StreamSql

/-- Rows of a name and a value, with no name twice. -/
abbrev Table (α : Type) := List (String × α)

namespace Table

variable {α : Type}

/-- The value under a name. -/
def get? : Table α → String → Option α
  | [], _ => none
  | (k, v) :: rest, name => if k = name then some v else get? rest name

/-- The name has a row. -/
def has (t : Table α) (name : String) : Bool :=
  (t.get? name).isSome

/-- The value under a name replaced, or a new row at the end. -/
def insert : Table α → String → α → Table α
  | [], name, value => [(name, value)]
  | (k, v) :: rest, name, value =>
    if k = name then (k, value) :: rest else (k, v) :: insert rest name value

/-- The table of the rows, a later row replacing an earlier one of its name. -/
def ofRows (rows : List (String × α)) : Table α :=
  rows.foldl (fun t row => t.insert row.1 row.2) []

/-- The rows in the order of their names. -/
def sorted (t : Table α) : Table α :=
  t.mergeSort fun a b => a.1 ≤ b.1

@[simp]
theorem get?_insert_self (t : Table α) (name : String) (value : α) :
    (t.insert name value).get? name = some value := by
  induction t with
  | nil => simp [insert, get?]
  | cons row rest ih => by_cases h : row.1 = name <;> simp [insert, get?, h, ih]

theorem get?_insert_of_ne (t : Table α) {name other : String} (value : α) (h : name ≠ other) :
    (t.insert name value).get? other = t.get? other := by
  induction t with
  | nil => simp [insert, get?, h]
  | cons row rest ih =>
    by_cases hr : row.1 = name
    · simp [insert, get?, hr, h]
    · simp [insert, get?, hr, ih]

/-- Entering a name that is present leaves the names as they are. -/
theorem keys_insert_of_has (t : Table α) {name : String} (value : α) (h : t.has name = true) :
    (t.insert name value).map Prod.fst = t.map Prod.fst := by
  induction t with
  | nil => simp [has, get?] at h
  | cons row rest ih =>
    by_cases hr : row.1 = name
    · simp [insert, hr]
    · simp only [has, get?, if_neg hr] at h
      simp [insert, hr, ih h]

/-- Entering a new name puts it at the end. -/
theorem insert_of_not_has (t : Table α) {name : String} (value : α) (h : t.has name = false) :
    t.insert name value = t ++ [(name, value)] := by
  induction t with
  | nil => rfl
  | cons row rest ih =>
    by_cases hr : row.1 = name
    · simp [has, get?, hr] at h
    · simp only [has, get?, if_neg hr] at h
      simp [insert, hr, ih h]

end Table

end StreamSql
