/-
  Configurations as rows of a YAML mapping.

  A configuration is written as a row for every setting.  It is read from rows in any order, each
  setting at most once; a setting without a row has its default, and rows of other names are left
  out of account.  What turns rows into a text, and a text into rows, is a parameter.

  * `Datum`: the value of a setting as it is written;
  * `YamlFormat`: what writes rows and reads them, and tells what a value in a text can be read as;
  * `Config.toYamlBy f c`: the text of a configuration;
  * `Config.ofYamlBy f text`: the configuration that a text gives, if it is valid.
-/
import StreamSql.Config

namespace StreamSql

/-- The value of a setting as it is written. -/
inductive Datum where
  | count (n : UInt64)
  | word (n : Int64)
  | flag (b : Bool)
  /-- one of several alternatives -/
  | variant (name : String)
  deriving DecidableEq, Repr

/-- What writes the rows of a mapping as a text, and reads them. -/
structure YamlFormat where
  /-- a value in a text -/
  Node : Type
  write? : List (String × Datum) → Option String
  /-- the rows of the mapping that a text spells, if it spells one -/
  read? : String → Option (List (String × Node))
  count? : Node → Option UInt64
  word? : Node → Option Int64
  flag? : Node → Option Bool
  /-- the name of the alternative that the value is -/
  variant? : Node → Option String
  /-- the value stands for nothing -/
  isNull : Node → Bool

namespace Setting

/-- The value of the setting. -/
def datum (s : Setting) (c : Config) : Datum :=
  match s with
  | queueCapacity => .count c.queueCapacity
  | tickMillis => .count c.tickMillis
  | flushOnStop => .flag c.flushOnStop
  | lateness => .word c.lateness
  | shutdownMillis => .count c.shutdownMillis
  | substitute => .variant c.substitute.name

/-- The substitute that a value names; NULL if the value stands for nothing. -/
def substitute? (f : YamlFormat) (v : f.Node) : Option Substitute :=
  if f.isNull v then some .null else (f.variant? v).bind Substitute.ofName?

/-- The configuration with the setting taken from a value. -/
def take? (f : YamlFormat) (s : Setting) (v : f.Node) (c : Config) : Option Config :=
  match s with
  | queueCapacity => (f.count? v).map fun n => { c with queueCapacity := n }
  | tickMillis => (f.count? v).map fun n => { c with tickMillis := n }
  | flushOnStop => (f.flag? v).map fun b => { c with flushOnStop := b }
  | lateness => (f.word? v).map fun n => { c with lateness := n }
  | shutdownMillis => (f.count? v).map fun n => { c with shutdownMillis := n }
  | substitute => (substitute? f v).map fun r => { c with substitute := r }

end Setting

namespace Config

/-- The rows of a configuration. -/
def rows (c : Config) : List (String × Datum) :=
  Setting.all.map fun s => (s.name, s.datum c)

/-- The configuration as text. -/
def toYamlBy (f : YamlFormat) (c : Config) : Except QueryError String :=
  match f.write? c.rows with
  | some text => .ok text
  | none => .error (.configuration .unwritable)

/-- The configuration after the rows; `seen` holds the settings already met. -/
def ofRows (f : YamlFormat) (seen : List Setting) (c : Config) :
    List (String × f.Node) → Option Config
  | [] => some c
  | (name, v) :: rest =>
    match Setting.ofName? name with
    | none => ofRows f seen c rest
    | some s =>
      if seen.contains s then none
      else (s.take? f v c).bind fun c => ofRows f (s :: seen) c rest

/-- The configuration that a text gives, if it is valid. -/
def ofYamlBy (f : YamlFormat) (text : String) : Except QueryError Config :=
  match (f.read? text).bind (ofRows f [] {}) with
  | none => .error (.configuration .unreadable)
  | some c => do
    c.check
    return c

end Config

end StreamSql
