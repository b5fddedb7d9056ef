import BusCompliance.CommandLine.Commands

/-!
# The program

Reads the files that the arguments name into a tree and runs the command on it. Paths start at the
working folder.
-/

namespace BusCompliance.CommandLine

/-- How deep folders are followed. -/
def folderDepth : Nat := 16

/-- The names that a path leads through. -/
def stepsOf (path : String) : List String :=
  ((path.toList.splitOn '/').map String.ofList).filter fun step => step != "" && step != "."

/-- The names in a folder. -/
def listFolder (path : String) : IO (List String) := do
  let folder ← IO.FS.realPath path
  return (← folder.readDir).toList.map (·.fileName)

/-- Add what lies at a path to a tree, with all that is inside a folder. -/
def addPath (tree : FileTree) (path : String) : Nat → IO FileTree
  | 0 => return tree
  | depth + 1 => do
    try
      let names ← listFolder path
      let tree := { tree with folders := tree.folders ++ [stepsOf path] }
      names.foldlM (fun tree name => addPath tree (FileTree.joinPath path name) depth) tree
    catch _ =>
      try
        let bytes ← IO.FS.readBinFile path
        return { tree with files := tree.files ++ [(stepsOf path, bytes)] }
      catch _ => return tree

/-- The paths that an invocation names. -/
def pathsOf (i : Invocation) : List String :=
  let file :=
    match i.command with
    | .validate file => [file]
    | _ => []
  i.options.config.toList ++ i.options.schemaPath.toList ++ file

/-- The files that an invocation may read, also those its configuration names. -/
def loadFiles (i : Invocation) : IO FileTree := do
  let tree ← (pathsOf i).foldlM (fun tree path => addPath tree path folderDepth) .empty
  match engineConfig tree i.options with
  | .ok config =>
    config.schemaPath.toList.foldlM (fun tree path => addPath tree path folderDepth) tree
  | .error _ => return tree

end BusCompliance.CommandLine

open BusCompliance.CommandLine in
def main (args : List String) : IO UInt32 := do
  match parse? args with
  | none =>
    IO.eprintln
      "usage: (schemas | create ID [--field NAME=VALUE]... [--json] | validate FILE) [options]"
    return 2
  | some i =>
    let outcome := run (← loadFiles i) args
    IO.print outcome.output
    if let some e := outcome.error then IO.eprintln s!"error: {e.message}"
    return UInt32.ofNat outcome.exitCode
