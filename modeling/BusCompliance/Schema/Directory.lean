import BusCompliance.Error
import BusCompliance.Text.Case
import BusCompliance.Toml.Record

/-!
# Schema directories

A directory names the levels of a specification and lists the schemas that each level defines.
-/

namespace BusCompliance

/-- The schema id of the header of a level. -/
def headerId : String := "HEADER"

structure LevelName where
  level : Nat
  name : String
deriving DecidableEq, Repr

structure SchemaEntry where
  id : String
  level : Nat
  /-- The fields whose values make up the id; none means those of the level's header. -/
  definition : List String
  shortName : Option String
  /-- The entry serves to deduce ids only, and has no template. -/
  definitionOnly : Bool
deriving DecidableEq, Repr

structure Directory where
  levels : List LevelName
  schemas : List SchemaEntry
deriving DecidableEq, Repr

namespace Directory

/-! ## Look-ups -/

/-- The first name of a level. -/
def levelName? (d : Directory) (level : Nat) : Option String :=
  (d.levels.find? fun l => l.level == level).map (·.name)

/-- The first level of a name, in any case. -/
def levelOf? (d : Directory) (name : String) : Option Nat :=
  (d.levels.find? fun l => Text.sameLetters l.name name).map (·.level)

def entry? (d : Directory) (id : String) (level : Nat) : Option SchemaEntry :=
  d.schemas.find? fun e => e.id == id && e.level == level

/-! ## Reading -/

def readLevelName? (v : Toml.Value) : Option LevelName := do
  match ← Toml.record? ["level", "name"] 2 v with
  | [level, name] =>
    return ⟨← Toml.required? (·.number? .u8) level, ← Toml.required? (·.string?) name⟩
  | _ => none

def readEntry? (v : Toml.Value) : Option SchemaEntry := do
  match ← Toml.record? ["id", "level", "definition", "alias", "definition_only"] 4 v with
  | [id, level, definition, shortName, definitionOnly] =>
    return {
      id := ← Toml.required? (·.string?) id
      level := ← Toml.required? (·.number? .u8) level
      definition := ← Toml.default? [] (·.list? (·.string?)) definition
      shortName := ← Toml.optional? (·.string?) shortName
      definitionOnly := ← Toml.default? false (·.bool?) definitionOnly }
  | _ => none

def ofMembers? (ms : Toml.Members) : Option Directory := do
  match ← Toml.Members.take? ["levels", "schemas"] ms with
  | [levels, schemas] =>
    return ⟨← Toml.default? [] (·.list? readLevelName?) levels,
      ← Toml.default? [] (·.list? readEntry?) schemas⟩
  | _ => none

def ofText (text : String) : Except Error Directory :=
  match (Toml.parse? text).bind ofMembers? with
  | some directory => .ok directory
  | none => .error .malformedDirectory

end Directory

end BusCompliance
