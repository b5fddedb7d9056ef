/-!
# File trees

A tree of files as a value. Everything that reads a file takes the tree it reads from, so reading
is a function.
-/

namespace BusCompliance

/-- Why a file cannot be read as text. -/
inductive FileFault
  | notFound
  | notFolder
  | isFolder
  | nameTooLong
  | nulByte
  | notText
deriving DecidableEq, Repr

def FileFault.message : FileFault → String
  | .notFound => "No such file or directory (os error 2)"
  | .notFolder => "Not a directory (os error 20)"
  | .isFolder => "Is a directory (os error 21)"
  | .nameTooLong => "File name too long (os error 36)"
  | .nulByte => "file name contained an unexpected NUL byte"
  | .notText => "stream did not contain valid UTF-8"

/-- Files with their content, and folders, each under the names that lead to it. A folder also
exists where something lies inside it. -/
structure FileTree where
  files : List (List String × ByteArray)
  folders : List (List String)

namespace FileTree

def empty : FileTree := ⟨[], []⟩

/-- All places that something is put at. -/
def places (tree : FileTree) : List (List String) := tree.files.map (·.1) ++ tree.folders

def file? (tree : FileTree) (place : List String) : Option ByteArray := tree.files.lookup place

def isFolder (tree : FileTree) (place : List String) : Bool :=
  place.isEmpty || tree.folders.contains place ||
    tree.places.any fun p => place.isPrefixOf p && place.length < p.length

def holds (tree : FileTree) (place : List String) : Bool :=
  tree.isFolder place || (tree.file? place).isSome

/-! ## Paths -/

/-- Where a path leads: to a place in the tree, or to one of the folders that the tree lies in, of
which nothing else is known. -/
inductive Location
  | inside (place : List String)
  | outside
deriving DecidableEq, Repr

namespace Location

/-- The folder that a folder lies in. -/
def parent : Location → Location
  | .inside [] | .outside => .outside
  | .inside place => .inside place.dropLast

/-- The place of an entry of a folder, if the tree holds it. -/
def child? (tree : FileTree) (name : String) : Location → Option Location
  | .inside place =>
    if tree.holds (place ++ [name]) then some (.inside (place ++ [name])) else none
  | .outside => none

def isFolder (tree : FileTree) : Location → Bool
  | .inside place => tree.isFolder place
  | .outside => true

end Location

/-- The longest name of an entry, in bytes. -/
def nameLimit : Nat := 255

/-- The longest path, in bytes. -/
def pathLimit : Nat := 4095

/-- Follow the steps of a path from a location. Every step but the last must end at a folder. -/
def walk (tree : FileTree) (start : Location) : List String → Except FileFault Location
  | [] => .ok start
  | step :: rest =>
    if !start.isFolder tree then .error .notFolder
    else if step = "" ∨ step = "." then tree.walk start rest
    else if step = ".." then tree.walk start.parent rest
    else if nameLimit < step.utf8ByteSize then .error .nameTooLong
    else
      match start.child? tree step with
      | some entry => tree.walk entry rest
      | none => .error .notFound

/-- Where a path leads from the root of the tree, or, if it begins with a slash, from outside. -/
def resolve (tree : FileTree) (path : String) : Except FileFault Location :=
  let steps := (path.toList.splitOn '/').map String.ofList
  if path.toList.contains (Char.ofNat 0) then .error .nulByte
  else if path.isEmpty then .error .notFound
  else if pathLimit < path.utf8ByteSize then .error .nameTooLong
  else tree.walk (if steps.head? = some "" then .outside else .inside []) steps

/-- The path of an entry of a folder. -/
def joinPath (folder name : String) : String :=
  if folder.isEmpty ∨ folder.toList.getLast? = some '/' then folder ++ name
  else folder ++ "/" ++ name

/-! ## Reading -/

def isFolderAt (tree : FileTree) (path : String) : Bool :=
  match tree.resolve path with
  | .ok location => location.isFolder tree
  | .error _ => false

/-- The text of the file at a path. -/
def readText (tree : FileTree) (path : String) : Except FileFault String := do
  match ← tree.resolve path with
  | .outside => .error .isFolder
  | .inside place =>
    match tree.file? place with
    | none => .error .isFolder
    | some bytes =>
      match String.fromUTF8? bytes with
      | none => .error .notText
      | some text => .ok text

/-- The names in the folder at a path, each once and in order. -/
def namesIn (tree : FileTree) (path : String) : List String :=
  match tree.resolve path with
  | .error _ | .ok .outside => []
  | .ok (.inside place) =>
    let inside := tree.places.filter fun p => place.isPrefixOf p
    let names := inside.filterMap fun p => (p.drop place.length).head?
    names.eraseDups.mergeSort (· ≤ ·)

end FileTree

end BusCompliance
