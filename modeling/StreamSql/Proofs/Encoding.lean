/-
  Values as JSON values, and back.

  What builds JSON values is a parameter (`JsonLibrary`).  It is taken to build the number of every
  word and of every finite float, and to have no number for any other float.

  * `JsonLibrary.Documented`: the library does so, also where it serializes;
  * `Value.writeWith_serializer`: what is serialized is the JSON value of a value;
  * `Value.floats v`: the floats in a value, at any depth;
  * `Value.clearNonFinite v`: the value with NULL in the place of every float that is not finite;
  * `Value.ofJson_toJson`: this is what is left of a value that goes through JSON, which is the
    value itself exactly if all floats in it are finite.
-/
import Mathlib.Tactic.Common
import StreamSql.Json

namespace StreamSql

/-- The library builds the numbers that there are, and its serializer builds the same JSON values;
    it serializes a float that is no number as `null`. -/
structure JsonLibrary.Documented (library : JsonLibrary) : Prop where
  ofWord : ∀ n, library.ofWord n = .integer n.toInt
  ofFloat? : ∀ x, library.ofFloat? x = if x.isFinite then some (.float x) else none
  null : library.serializer.null = .null
  boolean : ∀ b, library.serializer.boolean b = .boolean b
  integer : ∀ n, library.serializer.integer n = .integer n.toInt
  float : ∀ x, library.serializer.float x = if x.isFinite then .float x else .null
  text : ∀ s, library.serializer.text s = .text s
  array : ∀ items, library.serializer.array items = .array items
  object : ∀ fields, library.serializer.object fields = .object fields

theorem Json.library_documented : Json.library.Documented := by
  constructor <;> intros <;> rfl

namespace Value

variable {library : JsonLibrary}

/-! ## Two ways to a JSON value -/

theorem toJsonBy_float (h : library.Documented) (x : Double) :
    (float x).toJsonBy library = if x.isFinite then .float x else .null := by
  rw [toJsonBy, h.ofFloat?]
  split <;> rfl

mutual

/-- The two encoders agree. -/
theorem writeWith_serializer (h : library.Documented) :
    ∀ v : Value, v.writeWith library.serializer = v.toJsonBy library
  | null => h.null
  | boolean b => h.boolean b
  | integer n => (h.integer n).trans (h.ofWord n).symm
  | float x => (h.float x).trans (toJsonBy_float h x).symm
  | text s => h.text s
  | array items => (h.array _).trans (congrArg Json.array (writeItemsWith_serializer h items))
  | map fields => (h.object _).trans (congrArg Json.object (writeFieldsWith_serializer h fields))

theorem writeItemsWith_serializer (h : library.Documented) : ∀ items : List Value,
    writeItemsWith library.serializer items = toJsonItemsBy library items
  | [] => rfl
  | v :: rest => by
    rw [writeItemsWith, toJsonItemsBy, writeWith_serializer h v, writeItemsWith_serializer h rest]

theorem writeFieldsWith_serializer (h : library.Documented) : ∀ fields : Table Value,
    writeFieldsWith library.serializer fields = toJsonFieldsBy library fields
  | [] => rfl
  | (name, v) :: rest => by
    rw [writeFieldsWith, toJsonFieldsBy, writeWith_serializer h v,
      writeFieldsWith_serializer h rest]

end

/-! ## Floats that JSON has no number for -/

mutual

/-- The floats in a value, at any depth. -/
def floats : Value → List Double
  | float x => [x]
  | array items => floatsOfItems items
  | map fields => floatsOfFields fields
  | null | boolean _ | integer _ | text _ => []

/-- The floats in the items. -/
def floatsOfItems : List Value → List Double
  | [] => []
  | v :: rest => v.floats ++ floatsOfItems rest

/-- The floats in the values of the rows. -/
def floatsOfFields : Table Value → List Double
  | [] => []
  | (_, v) :: rest => v.floats ++ floatsOfFields rest

end

mutual

/-- The value with NULL in the place of every float that is not finite. -/
def clearNonFinite : Value → Value
  | float x => if x.isFinite then float x else null
  | array items => array (clearItems items)
  | map fields => map (clearFields fields)
  | v => v

/-- The items with NULL in the place of every float that is not finite. -/
def clearItems : List Value → List Value
  | [] => []
  | v :: rest => v.clearNonFinite :: clearItems rest

/-- The rows with NULL in the place of every float that is not finite. -/
def clearFields : Table Value → Table Value
  | [] => []
  | (name, v) :: rest => (name, v.clearNonFinite) :: clearFields rest

end

mutual

/-- Nothing is cleared just if there is nothing to clear. -/
theorem clearNonFinite_eq_self_iff : ∀ v : Value,
    v.clearNonFinite = v ↔ ∀ x ∈ v.floats, x.isFinite = true
  | null | boolean _ | integer _ | text _ => by simp [clearNonFinite, floats]
  | float x => by
    rw [clearNonFinite, floats, List.forall_mem_singleton]
    split
    · next h => exact iff_of_true rfl h
    · next h => exact iff_of_false nofun h
  | array items => by
    rw [clearNonFinite, floats, array.injEq]
    exact clearItems_eq_self_iff items
  | map fields => by
    rw [clearNonFinite, floats, map.injEq]
    exact clearFields_eq_self_iff fields

theorem clearItems_eq_self_iff : ∀ items : List Value,
    clearItems items = items ↔ ∀ x ∈ floatsOfItems items, x.isFinite = true
  | [] => by simp [clearItems, floatsOfItems]
  | v :: rest => by
    rw [clearItems, floatsOfItems, List.cons.injEq, List.forall_mem_append]
    exact and_congr (clearNonFinite_eq_self_iff v) (clearItems_eq_self_iff rest)

theorem clearFields_eq_self_iff : ∀ fields : Table Value,
    clearFields fields = fields ↔ ∀ x ∈ floatsOfFields fields, x.isFinite = true
  | [] => by simp [clearFields, floatsOfFields]
  | (name, v) :: rest => by
    rw [clearFields, floatsOfFields, List.cons.injEq, Prod.mk.injEq, List.forall_mem_append]
    simp only [true_and]
    exact and_congr (clearNonFinite_eq_self_iff v) (clearFields_eq_self_iff rest)

end

/-! ## Back from a JSON value -/

/-- Every word is within the integers of JSON that stay integers. -/
theorem ofInteger_toInt (n : Int64) : ofInteger n.toInt = integer n := by
  have h : Word.ofInt? n.toInt = some n := Word.ofInt?_eq_some_iff.2 rfl
  rw [ofInteger, h]

mutual

/-- What is left of a value that goes through JSON. -/
theorem decode_toJsonBy (h : library.Documented) :
    ∀ v : Value, ofJson (v.toJsonBy library) = v.clearNonFinite
  | null | boolean _ | text _ => rfl
  | integer n => by
    rw [toJsonBy, h.ofWord]
    exact ofInteger_toInt n
  | float x => by
    rw [toJsonBy_float h, clearNonFinite]
    split <;> rfl
  | array items => congrArg array (decode_toJsonItemsBy h items)
  | map fields => congrArg map (decode_toJsonFieldsBy h fields)

theorem decode_toJsonItemsBy (h : library.Documented) : ∀ items : List Value,
    ofJsonItems (toJsonItemsBy library items) = clearItems items
  | [] => rfl
  | v :: rest => by
    rw [toJsonItemsBy, ofJsonItems, clearItems, decode_toJsonBy h v, decode_toJsonItemsBy h rest]

theorem decode_toJsonFieldsBy (h : library.Documented) : ∀ fields : Table Value,
    ofJsonFields (toJsonFieldsBy library fields) = clearFields fields
  | [] => rfl
  | (name, v) :: rest => by
    rw [toJsonFieldsBy, ofJsonFields, clearFields, decode_toJsonBy h v,
      decode_toJsonFieldsBy h rest]

end

/-- Both encoders of a library, and the way back. -/
theorem ofJson_toJsonBy (h : library.Documented) (v : Value) :
    v.writeWith library.serializer = v.toJsonBy library ∧
    ofJson (v.toJsonBy library) = v.clearNonFinite ∧
    (ofJson (v.toJsonBy library) = v ↔ ∀ x ∈ v.floats, x.isFinite = true) := by
  refine ⟨writeWith_serializer h v, decode_toJsonBy h v, ?_⟩
  rw [decode_toJsonBy h]
  exact clearNonFinite_eq_self_iff v

/-- **Values through JSON.**  Both encoders build the same JSON value, and from it comes back the
    value with NULL in the place of every float that is not finite; that is the value itself
    exactly if there is no such float in it.  So it is with every library that does what it is
    documented to do. -/
theorem ofJson_toJson (v : Value) :
    (v.writeWith Json.writer = v.toJson ∧
      ofJson v.toJson = v.clearNonFinite ∧
      (ofJson v.toJson = v ↔ ∀ x ∈ v.floats, x.isFinite = true)) ∧
    ∀ library : JsonLibrary, library.Documented →
      v.writeWith library.serializer = v.toJsonBy library ∧
      ofJson (v.toJsonBy library) = v.clearNonFinite ∧
      (ofJson (v.toJsonBy library) = v ↔ ∀ x ∈ v.floats, x.isFinite = true) :=
  ⟨ofJson_toJsonBy Json.library_documented v, fun _ h => ofJson_toJsonBy h v⟩

/-- A list with the least word, and with a float deeper in it that is not a number. -/
theorem ofJson_toJson_nested :
    let v := array [integer Int64.minValue, map [("x", float (.notANumber true))]]
    Json.library.Documented ∧ v.writeWith Json.library.serializer = v.toJsonBy Json.library ∧
      ofJson (v.toJsonBy Json.library) = array [integer Int64.minValue, map [("x", null)]] := by
  intro v
  obtain ⟨hsame, hback, -⟩ := (ofJson_toJson v).2 Json.library Json.library_documented
  exact ⟨Json.library_documented, hsame, hback⟩

end Value

end StreamSql
