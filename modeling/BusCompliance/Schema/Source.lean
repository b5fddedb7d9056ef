import BusCompliance.Event
import BusCompliance.FileTree
import BusCompliance.Schema.Edition2019
import BusCompliance.Schema.Version
import BusCompliance.Text.Dotted

/-!
# Schema sources

Where the texts of a specification come from. A source is not asked what the texts mean.
-/

namespace BusCompliance

inductive Source
  /-- The edition that the library ships. -/
  | embedded
  /-- A folder with one folder for each version. -/
  | folder (root : String) (tree : FileTree)
  /-- Texts that serve any version, documents in the order given. -/
  | inline (directory : String) (documents : List (String × String))

namespace Source

def directoryName : String := "DIRECTORY.toml"

def describe : Source → String
  | .embedded => "embedded"
  | .folder root _ => root
  | .inline .. => "inline"

/-- The folder of a version, which has to be there. -/
def versionPath (root : String) (tree : FileTree) (version : Nat) : Except Error String :=
  let path := FileTree.joinPath root (versionFolder version)
  if tree.isFolderAt path then .ok path
  else .error (.unsupportedVersion version (.noFolder path))

def checkEmbedded (version : Nat) : Except Error Unit :=
  if version = currentVersion then .ok () else .error (.unsupportedVersion version .notEmbedded)

def readFile (tree : FileTree) (path : String) : Except Error String :=
  match tree.readText path with
  | .ok text => .ok text
  | .error fault => .error (.unreadableSchemaFile path fault)

/-- The text of the directory of a version. -/
def readDirectory (source : Source) (version : Nat) : Except Error String :=
  match source with
  | .embedded => do
    checkEmbedded version
    return Edition2019.textOf Edition2019.directory
  | .folder root tree => do
    let path ← versionPath root tree version
    readFile tree (FileTree.joinPath path directoryName)
  | .inline directory _ => .ok directory

/-- A name with something before the ending of schema documents, other than the directory's. -/
def isDocumentName (name : String) : Bool :=
  let cs := name.toList
  name != directoryName && ".toml".toList.isSuffixOf cs && 5 < cs.length

/-- Read one document of a folder, and report that it is read. -/
def readDocument (tree : FileTree) (folder name : String) : Action (String × String) := do
  Action.log (.readingDocument name)
  let text ← Action.ofExcept (readFile tree (FileTree.joinPath folder name))
  return (name, text)

/-- The names and texts of all documents of a version. -/
def readDocuments (source : Source) (version : Nat) : Action (List (String × String)) :=
  match source with
  | .embedded => do
    Action.ofExcept (checkEmbedded version)
    return Edition2019.documents.map fun (name, lines) => (name, Edition2019.textOf lines)
  | .folder root tree => do
    let path ← Action.ofExcept (versionPath root tree version)
    ((tree.namesIn path).filter isDocumentName).mapM (readDocument tree path)
  | .inline _ documents => pure documents

end Source

end BusCompliance
