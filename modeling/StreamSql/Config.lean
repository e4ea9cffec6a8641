/-
  The configuration of an engine.

  * `Config`: six settings with their defaults;
  * `Setting`: the settings by name, with their values from text;
  * `Config.check`: the queue has room, the timer has a period, and the lateness allowed is
    not negative.
-/
import StreamSql.Error
import StreamSql.Number.Numeral
import StreamSql.Text.Blank
import StreamSql.Value

namespace StreamSql

/-! ## Substitutes for failed columns -/

/-- What stands in a column whose expression fails. -/
inductive Substitute where
  | null | zero
  deriving DecidableEq, Repr

namespace Substitute

/-- The substitute as a value. -/
def value : Substitute → Value
  | null => .null
  | zero => .integer 0

/-- The name of the substitute. -/
def name : Substitute → String
  | null => "null"
  | zero => "zero"

/-- The substitute of exactly this name. -/
def ofName? (name : String) : Option Substitute :=
  if name = "null" then some null else if name = "zero" then some zero else none

/-- The substitute that a text asks for: its name in any case, or the digit of zero. -/
def parse (text : String) : Except QueryError Substitute :=
  match Text.lower (Text.trim text) with
  | "null" => .ok null
  | "zero" | "0" => .ok zero
  | other => .error (.configuration (.unknownPolicy other))

end Substitute

/-! ## Configurations -/

/-- The configuration of an engine. -/
structure Config where
  /-- the number of batches that wait for the sinks at most -/
  queueCapacity : UInt64 := 1024
  /-- the period of the timer, in milliseconds -/
  tickMillis : UInt64 := 100
  /-- open windows fire when the engine stops -/
  flushOnStop : Bool := true
  /-- how far the watermark stays behind the latest event time, in milliseconds -/
  lateness : Int64 := 0
  /-- how long stopping waits, in milliseconds -/
  shutdownMillis : UInt64 := 5000
  substitute : Substitute := .null
  deriving DecidableEq, Repr

namespace Config

/-- Why the configuration is refused. -/
def fault? (c : Config) : Option ConfigurationFault :=
  if c.queueCapacity = 0 then some .emptyQueue
  else if c.tickMillis = 0 then some .zeroTick
  else if c.lateness < 0 then some .negativeLateness
  else none

/-- The configuration is valid. -/
def check (c : Config) : Except QueryError Unit :=
  match c.fault? with
  | some fault => .error (.configuration fault)
  | none => .ok ()

end Config

/-! ## Settings by name -/

/-- The settings of a configuration. -/
inductive Setting where
  | queueCapacity | tickMillis | flushOnStop | lateness | shutdownMillis | substitute
  deriving DecidableEq, Repr

namespace Setting

/-- All settings in the order in which they are written. -/
def all : List Setting :=
  [queueCapacity, tickMillis, flushOnStop, lateness, shutdownMillis, substitute]

/-- The name of a setting. -/
def name : Setting → String
  | queueCapacity => "result_queue_capacity"
  | tickMillis => "tick_interval_ms"
  | flushOnStop => "flush_on_stop"
  | lateness => "max_out_of_orderness_ms"
  | shutdownMillis => "shutdown_timeout_ms"
  | substitute => "projection_error_policy"

/-- The setting of this name. -/
def ofName? (name : String) : Option Setting :=
  all.find? fun s => s.name = name

/-- The truth value that a text asks for, in any case. -/
def readFlag? (text : String) : Option Bool :=
  match Text.lower (Text.trim text) with
  | "true" | "1" | "yes" | "on" => some true
  | "false" | "0" | "no" | "off" => some false
  | _ => none

/-- The word that a text spells. -/
def readCount? (text : String) : Option UInt64 :=
  (Numeral.readNatural? text).map UInt64.ofNat

/-- The configuration with the setting taken from a text, blanks around it left out. -/
def readText? (s : Setting) (text : String) (c : Config) : Option Config :=
  let text := Text.trim text
  match s with
  | queueCapacity => (readCount? text).map fun n => { c with queueCapacity := n }
  | tickMillis => (readCount? text).map fun n => { c with tickMillis := n }
  | flushOnStop => (readFlag? text).map fun b => { c with flushOnStop := b }
  | lateness => (Numeral.readWord? text).map fun n => { c with lateness := n }
  | shutdownMillis => (readCount? text).map fun n => { c with shutdownMillis := n }
  | substitute => (Substitute.parse text).toOption.map fun v => { c with substitute := v }

end Setting

end StreamSql
