/-
  JSON values.

  What builds the JSON value of a number, and what a serializer builds, is left to a library.

  * `Json`: a number is an integer between the least signed and the greatest unsigned
    64-bit word, or a float;
  * `JsonLibrary`: what builds JSON values of numbers, and of what is serialized; `Json.library` is
    the one of these definitions, in which a float that is not finite is `null`;
  * `Value.toJsonBy`, `Value.toJson`: the JSON value of a value;
  * `JsonWriter`, `Value.writeWith`: a value serialized by a writer that builds its output bottom
    up; with `Json.writer` it builds the JSON value;
  * `Value.ofJson`: an integer that is no signed word becomes a float.
-/
import StreamSql.Value

namespace StreamSql

/-- A JSON value. -/
inductive Json where
  | null
  | boolean (b : Bool)
  | integer (n : Int)
  | float (x : Double)
  | text (s : String)
  | array (items : List Json)
  | object (fields : List (String × Json))

/-- What a value looks like in another notation. -/
structure JsonWriter (α : Type) where
  null : α
  boolean : Bool → α
  integer : Int64 → α
  float : Double → α
  text : String → α
  array : List α → α
  object : Table α → α

/-- What builds JSON values of numbers, and JSON values of what is serialized. -/
structure JsonLibrary where
  ofWord : Int64 → Json
  /-- the JSON number that a float is, if there is one -/
  ofFloat? : Double → Option Json
  serializer : JsonWriter Json

/-- Builds JSON values; a float that is not finite is `null`. -/
def Json.writer : JsonWriter Json where
  null := .null
  boolean := .boolean
  integer n := .integer n.toInt
  float x := if x.isFinite then .float x else .null
  text := .text
  array := .array
  object := .object

/-- The library of these definitions. -/
def Json.library : JsonLibrary where
  ofWord n := .integer n.toInt
  ofFloat? x := if x.isFinite then some (.float x) else none
  serializer := Json.writer

namespace Value

mutual

/-- The JSON value of a value; where a float is no JSON number it is `null`. -/
def toJsonBy (library : JsonLibrary) : Value → Json
  | null => .null
  | boolean b => .boolean b
  | integer n => library.ofWord n
  | float x => (library.ofFloat? x).getD .null
  | text s => .text s
  | array items => .array (toJsonItemsBy library items)
  | map fields => .object (toJsonFieldsBy library fields)

/-- The JSON values of the items. -/
def toJsonItemsBy (library : JsonLibrary) : List Value → List Json
  | [] => []
  | v :: rest => v.toJsonBy library :: toJsonItemsBy library rest

/-- The JSON values of the rows. -/
def toJsonFieldsBy (library : JsonLibrary) : Table Value → Table Json
  | [] => []
  | (name, v) :: rest => (name, v.toJsonBy library) :: toJsonFieldsBy library rest

end

/-- The JSON value of a value. -/
def toJson (v : Value) : Json :=
  v.toJsonBy Json.library

mutual

/-- The output of a writer for a value. -/
def writeWith {α : Type} (w : JsonWriter α) : Value → α
  | null => w.null
  | boolean b => w.boolean b
  | integer n => w.integer n
  | float x => w.float x
  | text s => w.text s
  | array items => w.array (writeItemsWith w items)
  | map fields => w.object (writeFieldsWith w fields)

/-- The outputs for the items. -/
def writeItemsWith {α : Type} (w : JsonWriter α) : List Value → List α
  | [] => []
  | v :: rest => v.writeWith w :: writeItemsWith w rest

/-- The outputs for the rows. -/
def writeFieldsWith {α : Type} (w : JsonWriter α) : Table Value → Table α
  | [] => []
  | (name, v) :: rest => (name, v.writeWith w) :: writeFieldsWith w rest

end

/-- An integer as a value. -/
def ofInteger (n : Int) : Value :=
  match Word.ofInt? n with
  | some w => integer w
  | none => float (.ofInt n)

mutual

/-- The value of a JSON value. -/
def ofJson : Json → Value
  | .null => null
  | .boolean b => boolean b
  | .integer n => ofInteger n
  | .float x => float x
  | .text s => text s
  | .array items => array (ofJsonItems items)
  | .object fields => map (ofJsonFields fields)

/-- The values of the items. -/
def ofJsonItems : List Json → List Value
  | [] => []
  | j :: rest => ofJson j :: ofJsonItems rest

/-- The values of the rows. -/
def ofJsonFields : Table Json → Table Value
  | [] => []
  | (name, j) :: rest => (name, ofJson j) :: ofJsonFields rest

end

end Value

end StreamSql
