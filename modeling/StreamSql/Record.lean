/-
  Records of a stream, and the rows and batches that a query makes of them.

  * `Record.ofJson text`: the record that a JSON object spells;
  * `Record.path r p`: the value under a path; a field of that very name comes first, then
    the path is followed through nested maps, and what is not there is NULL;
  * `Batch`: the rows of one firing, with the bounds of its window.
-/
import StreamSql.Json.Reader
import StreamSql.Window.Bounds

namespace StreamSql

/-- A record: its fields by name. -/
structure Record where
  fields : Table Value := []

/-- A row of a result: its values by column. -/
abbrev Row := Table Value

namespace Record

/-- The record that a JSON object spells. -/
def ofJson (text : String) : Except QueryError Record :=
  match Json.parse? text with
  | none => .error (.execution .invalidJson)
  | some json =>
    match Value.ofJson json with
    | .map fields => .ok ⟨fields⟩
    | v => Value.mismatch .jsonObject v

/-- The value at the end of the segments, from `v` on. -/
def walk (v : Value) : List String → Value
  | [] => v
  | segment :: rest =>
    match v with
    | .map fields =>
      match Table.get? fields segment with
      | some next => walk next rest
      | none => .null
    | _ => .null

/-- The value under a path. -/
def path (r : Record) (p : String) : Value :=
  match r.fields.get? p with
  | some v => v
  | none => walk (.map r.fields) (p.splitOn ".")

/-- The text of a record. -/
def render (r : Record) : String :=
  "StreamRecord \x7b " ++ Value.joinFields (Value.renderFields r.fields) ++ " \x7d"

end Record

/-- The rows of one firing. -/
structure Batch where
  rows : List Row
  window : Option Bounds

end StreamSql
