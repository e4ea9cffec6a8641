/-
  Settings from outside a configuration.

  A setting is looked up in the environment first, in the variable of its name in upper
  case, and then among the properties of the query, under each of its keys in turn; names of
  properties are the same in any case of ASCII letters, the exact name coming first.  A text
  that does not spell a value is passed over.

  * `Sources.first?`: the first value that one of the sources spells;
  * `Config.override`: the configuration with all settings looked up, if it is valid.
-/
import StreamSql.Config
import StreamSql.Table

namespace StreamSql

/-- The environment of a program: variables whose names begin alike. -/
structure Environment where
  /-- how the names of the variables begin -/
  stem : String := ""
  entries : Table String := []

namespace Environment

/-- The name of the variable under a key. -/
def variableName (e : Environment) (key : String) : String :=
  e.stem ++ key

/-- The text of the variable under a key. -/
def read? (e : Environment) (key : String) : Option String :=
  e.entries.get? (e.variableName key)

end Environment

/-- The places where settings are looked up. -/
structure Sources where
  environment : Environment := {}
  properties : Table String := []

namespace Sources

/-- The text of a property, whatever the case of its name. -/
def property? (s : Sources) (key : String) : Option String :=
  (s.properties.get? key).or
    ((s.properties.find? fun row => Text.sameAscii row.1 key).map Prod.snd)

/-- The first value that a source spells. -/
def first? {α : Type} (s : Sources) (variableKey : String) (keys : List String)
    (read : String → Option α) : Option α :=
  ((s.environment.read? variableKey).bind read).or
    (keys.findSome? fun key => (s.property? key).bind read)

end Sources

namespace Setting

/-- The key of the variable of a setting. -/
def variableKey (s : Setting) : String :=
  Text.upper s.name

/-- The keys of the properties of a setting. -/
def propertyKeys (s : Setting) : List String :=
  match s with
  | lateness => [s.name, "max_lateness_ms"]
  | s => [s.name]

end Setting

namespace Config

/-- The configuration with one setting looked up. -/
def overrideOne (sources : Sources) (c : Config) (s : Setting) : Config :=
  (sources.first? s.variableKey s.propertyKeys fun text => s.readText? text c).getD c

/-- The configuration with all settings looked up. -/
def override (c : Config) (sources : Sources) : Except QueryError Config := do
  let c := Setting.all.foldl (overrideOne sources) c
  c.check
  return c

end Config

end StreamSql
