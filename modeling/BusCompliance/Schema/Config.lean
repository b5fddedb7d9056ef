import BusCompliance.Schema.Version
import BusCompliance.SchemaLevel
import BusCompliance.Toml.Record

/-!
# Engine configuration

Which specification is loaded, and when messages are checked. Every setting has a default.
-/

namespace BusCompliance

structure EngineConfig where
  version : VersionSelector
  level : Nat
  /-- The root of a tree of schema documents, instead of the ones the library ships. -/
  schemaPath : Option String
  validatePublish : Bool
  validateReceive : Bool
  learn : Bool
deriving DecidableEq, Repr

namespace EngineConfig

def standard : EngineConfig := ⟨.current, 0, none, false, false, false⟩

instance : Inhabited EngineConfig := ⟨standard⟩

def schemaLevel (c : EngineConfig) : Except Error SchemaLevel := SchemaLevel.ofNat c.level

/-- A version as a number, or as text. -/
def version? : Toml.Value → Option VersionSelector
  | .string s => (VersionSelector.ofText s).toOption
  | v => (v.number? .u32).map .exact

def keys : List String :=
  ["specification_version", "schema_level", "schema_path", "validate_publish", "validate_receive",
    "learn_unknown_schemas"]

def ofMembers? (ms : Toml.Members) : Option EngineConfig := do
  match ← Toml.Members.take? keys ms with
  | [version, level, path, publish, receive, learn] =>
    return {
      version := ← Toml.default? .current version? version
      level := ← Toml.default? 0 (·.number? .u8) level
      schemaPath := ← Toml.optional? (·.string?) path
      validatePublish := ← Toml.default? false (·.bool?) publish
      validateReceive := ← Toml.default? false (·.bool?) receive
      learn := ← Toml.default? false (·.bool?) learn }
  | _ => none

/-- The configuration of a document. Its level has to exist. -/
def ofText (text : String) : Except Error EngineConfig :=
  match (Toml.parse? text).bind ofMembers? with
  | none => .error .malformedConfig
  | some config => config.schemaLevel.map fun _ => config

def ofFile (tree : FileTree) (path : String) : Except Error EngineConfig :=
  match tree.readText path with
  | .ok text => ofText text
  | .error fault => .error (.unreadableConfig path fault)

end EngineConfig

end BusCompliance
