import BusCompliance.Number.IntegerType

/-!
# Command line arguments

The engine options may stand before or after the name of the command, and count most behind it. An
option takes its value from the next argument or behind an equals sign. Arguments that fit no
command are refused as a whole.
-/

namespace BusCompliance.CommandLine

/-- Options that may be given with any command. -/
structure EngineOptions where
  config : Option String
  level : Option Nat
  version : Option String
  schemaPath : Option String
  learn : Bool
deriving DecidableEq, Repr

inductive Command
  | schemas
  | create (id : String) (fields : List String) (json : Bool)
  | validate (file : String)
deriving DecidableEq, Repr

structure Invocation where
  options : EngineOptions
  command : Command
deriving DecidableEq, Repr

/-! ## Scanning -/

/-- Which options a command knows. -/
structure Grammar where
  /-- Options with a value that may be given once. -/
  valued : List String
  /-- Options with a value that may be given often. -/
  repeated : List String
  flags : List String

/-- What the arguments so far give. -/
structure Given where
  values : List (String × String)
  flags : List String
  plain : List String

namespace Given

def empty : Given := ⟨[], [], []⟩

def addValue (g : Grammar) (x : Given) (name value : String) : Option Given :=
  if g.repeated.contains name ∨ (g.valued.contains name ∧ !x.values.any (·.1 == name)) then
    some { x with values := x.values ++ [(name, value)] }
  else none

def addFlag (g : Grammar) (x : Given) (name : String) : Option Given :=
  if g.flags.contains name ∧ !x.flags.contains name then
    some { x with flags := x.flags ++ [name] }
  else none

def value? (x : Given) (name : String) : Option String := x.values.lookup name

/-- All values of an option. -/
def valuesOf (x : Given) (name : String) : List String :=
  (x.values.filter (·.1 == name)).map (·.2)

end Given

/-- The argument looks like an option. A hyphen alone does not. -/
def isDashed (arg : String) : Bool := arg != "-" && arg.toList.head? == some '-'

/-- The name of an option, and the value behind an equals sign. -/
def longOption? (arg : String) : Option (String × Option String) :=
  match arg.toList with
  | '-' :: '-' :: cs =>
    let name := String.ofList (cs.takeWhile (· != '='))
    match cs.dropWhile (· != '=') with
    | _ :: value => some (name, some (String.ofList value))
    | [] => some (name, none)
  | _ => none

/-- Take arguments up to the first that is no option, if `stop` is set, or else all of them. Behind
two hyphens nothing is an option. -/
def scan (g : Grammar) (stop : Bool) (x : Given) : List String → Option (Given × List String)
  | [] => some (x, [])
  | arg :: rest =>
    if arg = "--" then if stop then none else some ({ x with plain := x.plain ++ rest }, [])
    else
      match longOption? arg with
      | some (name, some value) => (x.addValue g name value).bind fun x => scan g stop x rest
      | some (name, none) =>
        if g.flags.contains name then (x.addFlag g name).bind fun x => scan g stop x rest
        else
          match rest with
          | [] => none
          | value :: rest =>
            if isDashed value then none
            else (x.addValue g name value).bind fun x => scan g stop x rest
      | none =>
        if isDashed arg then none
        else if stop then some (x, arg :: rest)
        else scan g stop { x with plain := x.plain ++ [arg] } rest

/-! ## Engine options -/

def engineValued : List String := ["config", "level", "spec-version", "schema-path"]

/-- A path may not be empty. -/
def path? (text : Option String) : Option (Option String) :=
  if text = some "" then none else some text

/-- A level is a number of eight bits. -/
def level? : Option String → Option (Option Nat)
  | none => some none
  | some text =>
    (IntegerType.i64.read? text.toList).bind fun n =>
      (IntegerType.u8.number? n.val).map fun n => some n.val.toNat

def engineOptions? (x : Given) : Option EngineOptions := do
  return {
    config := ← path? (x.value? "config")
    level := ← level? (x.value? "level")
    version := x.value? "spec-version"
    schemaPath := ← path? (x.value? "schema-path")
    learn := x.flags.contains "learn" }

/-- Options behind the command over those before it. -/
def EngineOptions.orElse (inner outer : EngineOptions) : EngineOptions where
  config := inner.config <|> outer.config
  level := inner.level <|> outer.level
  version := inner.version <|> outer.version
  schemaPath := inner.schemaPath <|> outer.schemaPath
  learn := inner.learn || outer.learn

/-! ## Commands -/

/-- The options of a command beside those of the engine. -/
def grammarOf (command : String) : Grammar :=
  if command = "create" then ⟨engineValued, ["field"], ["learn", "json"]⟩
  else ⟨engineValued, [], ["learn"]⟩

def command? (name : String) (x : Given) : Option Command :=
  match name, x.plain with
  | "schemas", [] => some .schemas
  | "create", [id] => some (.create id (x.valuesOf "field") (x.flags.contains "json"))
  | "validate", [file] => if file.isEmpty then none else some (.validate file)
  | _, _ => none

/-- What the arguments ask for. -/
def parse? (args : List String) : Option Invocation := do
  let (before, rest) ← scan ⟨engineValued, [], ["learn"]⟩ true .empty args
  match rest with
  | [] => none
  | name :: rest =>
    let (behind, _) ← scan (grammarOf name) false .empty rest
    let command ← command? name behind
    let outer ← engineOptions? before
    let inner ← engineOptions? behind
    return ⟨inner.orElse outer, command⟩

end BusCompliance.CommandLine
