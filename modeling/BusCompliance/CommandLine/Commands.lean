import BusCompliance.CommandLine.Arguments
import BusCompliance.Factory

/-!
# Commands

What each command prints, and how it ends. A command that fails keeps what it has printed before.
-/

namespace BusCompliance.CommandLine

/-- A command prints lines and may fail. -/
abbrev Printing (α : Type) : Type := ExceptT Error (StateM String) α

def printLine (line : String) : Printing Unit := modify (· ++ line ++ "\n")

def ofExcept {α : Type} (x : Except Error α) : Printing α := ExceptT.mk (pure x)

/-- Take what an action comes to. -/
def outcomeOf {α : Type} (x : Action α) : Printing α := ofExcept x.outcome

/-! ## Configuration -/

/-- The configuration of the options, which go over what the file of the configuration says. -/
def engineConfig (tree : FileTree) (o : EngineOptions) : Except Error EngineConfig := do
  let config ← o.config.elim (.ok EngineConfig.standard) (EngineConfig.ofFile tree)
  let config := { config with level := o.level.getD config.level }
  let version ← o.version.elim (.ok config.version) VersionSelector.ofText
  let config :=
    { config with
      version
      schemaPath := o.schemaPath <|> config.schemaPath
      learn := config.learn || o.learn }
  config.schemaLevel.map fun _ => config

/-! ## Lists -/

/-- The text with blanks behind it up to a width. -/
def padRight (width : Nat) (s : String) : String :=
  s ++ String.ofList (List.replicate (width - s.length) ' ')

/-- The text with blanks before it up to a width. -/
def padLeft (width : Nat) (s : String) : String :=
  String.ofList (List.replicate (width - s.length) ' ') ++ s

/-- One line on a template under an id. -/
def templateLine (id : String) (t : Template) : String :=
  let fields := padLeft 3 (Natural.text t.fields.length)
  s!"  {padRight 12 id} {padRight 9 t.level.text} {fields} fields  {t.description}"

def printTemplate (r : Registry) (id : String) : Printing Unit := do
  let t ← outcomeOf (r.findTemplate id)
  printLine (templateLine id t)

def printHeader (r : Registry) (name : String) : Printing Unit := do
  let fields := ", ".intercalate (← ofExcept (r.headerFieldNames (some name)))
  printLine s!"  {name} header: {fields}"

def runSchemas (tree : FileTree) (config : EngineConfig) : Printing Bool := do
  let r ← outcomeOf (Registry.ofConfig tree config)
  printLine s!"Specification {config.version.resolve} at LEVEL-{config.level} ({r.source})"
  printLine ""
  r.schemaIds.forM (printTemplate r)
  printLine ""
  r.levelNames.forM (printHeader r)
  return true

/-! ## Messages -/

/-- A factory whose validators keep nothing. -/
def factoryOf (tree : FileTree) (config : EngineConfig) :
    Printing (Factory Unit × Registry) :=
  outcomeOf (Factory.ofConfig tree config)

/-- Check a message and print the result. -/
def report (f : Factory Unit) (r : Registry) (m : Message) : Printing Bool := do
  let status := ((f.isCompliant m).run (r, ())).value.1
  printLine (if status.isOk then "COMPLIANT" else s!"NOT COMPLIANT {status.text}")
  return status.isOk

/-- The field of an assignment. It has the type that the template declares for its name, if that is
one type, and is a string otherwise. -/
def assignedField (t : Template) (assignment : String) : Except Error Field :=
  match Text.splitFirst '=' assignment.toList with
  | none => .error (.notAssignment assignment)
  | some (name, value) =>
    let name := String.ofList (Text.trimChars name)
    let declared := (t.fieldSpec? name).bind (·.type.single?)
    Field.ofText name (declared.getD .string) (String.ofList value)

def runCreate (tree : FileTree) (config : EngineConfig) (id : String) (fields : List String)
    (json : Bool) : Printing Bool := do
  let (f, r) ← factoryOf tree config
  let t ← outcomeOf (r.findTemplate id)
  let m ← outcomeOf (f.create r id)
  let added ← fields.mapM fun assignment => ofExcept (assignedField t assignment)
  let m := m.addAll added
  printLine (if json then (r.toJson m).value else (r.toXml m).value)
  report f r m

def runValidate (tree : FileTree) (config : EngineConfig) (file : String) : Printing Bool := do
  match tree.readText file with
  | .error fault => throw (.unreadableFile file fault)
  | .ok text =>
    let (f, r) ← factoryOf tree config
    let m ← outcomeOf (r.readMessage text)
    let schema := m.schemaId?.getD "(none)"
    printLine s!"{file}: {m.kind.name} with {m.fields.size} fields, schema {schema}"
    report f r m

def runCommand (tree : FileTree) (i : Invocation) : Printing Bool := do
  let config ← ofExcept (engineConfig tree i.options)
  match i.command with
  | .schemas => runSchemas tree config
  | .create id fields json => runCreate tree config id fields json
  | .validate file => runValidate tree config file

/-! ## Outcomes -/

/-- What a run comes to. -/
structure Outcome where
  exitCode : Nat
  output : String
  error : Option Error

/-- Run the command that the arguments ask for: 0 is a success, 1 an error, and 2 a message that is
not compliant or arguments that fit no command. -/
def run (tree : FileTree) (args : List String) : Outcome :=
  match parse? args with
  | none => ⟨2, "", none⟩
  | some i =>
    match (runCommand tree i).run.run "" with
    | (.ok true, output) => ⟨0, output, none⟩
    | (.ok false, output) => ⟨2, output, none⟩
    | (.error e, output) => ⟨1, output, some e⟩

end BusCompliance.CommandLine
