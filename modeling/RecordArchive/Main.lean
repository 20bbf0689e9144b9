import RecordArchive.CommandLine.Run
import Std.Time.DateTime.Timestamp

/-! # The program

Loads what a command line names from the disk into a tree of files, carries the command line out,
writes back what it changed, and shows its lines. -/

namespace RecordArchive.Disk

/-- The path of a location. -/
def pathOf (location : Location) : String := "/" ++ Path.ofNames location

/-- The tree with the node that stands at a location on the disk, if there is one, and the names of
what a directory there holds. -/
def loadNode (location : Location) (tree : FileTree) : IO (FileTree × List String) := do
  try
    let path ← IO.FS.realPath (pathOf location)
    let facts ← path.metadata
    match facts.type with
    | .dir =>
      let children ← path.readDir
      return (tree.insert location (.directory facts.modified.sec),
        children.toList.map (·.fileName))
    | _ =>
      let content ← IO.FS.readBinFile path
      return (tree.insert location (.file content.data facts.modified.sec), [])
  catch _ => return (tree, [])

/-- The tree with all that stands at a location and below it on the disk. -/
partial def load (location : Location) (tree : FileTree) : IO FileTree := do
  let (tree, children) ← loadNode location tree
  children.foldlM (fun tree child => load (location ++ [child]) tree) tree

/-- The locations that steps lead through. -/
def visited : Location → List String → List Location
  | location, [] => [location]
  | location, step :: rest =>
    location :: visited
      (if step = "." then location
       else if step = ".." then location.dropLast
       else location ++ [step]) rest

/-- The tree with what stands along a path and below its end on the disk. -/
def loadPath (directory : Location) (tree : FileTree) (path : String) : IO FileTree := do
  match FileTree.Route.ofPath directory path with
  | .error _ => return tree
  | .ok route =>
    let places := visited [] (route.start ++ route.steps)
    let tree ← places.foldlM (fun tree place => return (← loadNode place tree).1) tree
    load (places.getLast?.getD []) tree

/-- Writes a node to the disk unless it is as before. -/
def store (before : FileTree) (location : Location) (node : Node) : IO Unit := do
  if before.find? location ≠ some node then
    match node with
    | .directory _ => IO.FS.createDirAll (pathOf location)
    | .file bytes _ => IO.FS.writeBinFile (pathOf location) ⟨bytes⟩

/-- The paths that a command line names, none if it is refused. -/
def pathsOf (arguments : List String) : List String :=
  match CommandLine.Command.parse arguments with
  | .ok command => command.paths
  | .error _ => []

/-- The session for a command line. -/
def session (arguments : List String) : IO CommandLine.Session := do
  let directory := Path.names (← IO.currentDir).toString
  let now ← Std.Time.Timestamp.now
  let tree ← (pathsOf arguments).foldlM (loadPath directory) {}
  return { tree, directory, clock := now.toSecondsSinceUnixEpoch.val }

/-- Tells the user how a command line ended. -/
def report : CommandLine.Outcome → IO Unit
  | .done => return ()
  | .failed error => IO.eprintln s!"Error: {error.message}"
  | .refused error =>
    if error.isInquiry then CommandLine.usage.forM IO.println
    else do
      IO.eprintln s!"error: {error.message}"
      CommandLine.usage.forM IO.eprintln

end RecordArchive.Disk

/-- Carries out a command line on the disk. -/
def main (arguments : List String) : IO UInt32 := do
  let start ← RecordArchive.Disk.session arguments
  let (outcome, final) := RecordArchive.CommandLine.run arguments start
  for (location, node) in final.tree.nodes do
    RecordArchive.Disk.store start.tree location node
  for line in final.output do IO.println line
  for warning in final.warnings do IO.eprintln s!"warning: {warning}"
  RecordArchive.Disk.report outcome
  return outcome.exitCode
