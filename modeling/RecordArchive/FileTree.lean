import RecordArchive.IoError
import RecordArchive.Path

/-! # Trees of files and directories

A file system without links: files and directories, each found by the list of names from the root.
`Route.ofPath` reads a path as the system walks it; `resolve` follows a route to something that is
there, `createFile` and `makeDirectories` make something new. A failure leaves the tree as far as it
was made. -/

namespace RecordArchive

/-- The names from the root of a tree. -/
abbrev Location := List String

/-- What stands at a location, with the time of its last change in seconds since the start of
1970. -/
inductive Node
  | file (bytes : Array UInt8) (modified : Int)
  | directory (modified : Int)
  deriving DecidableEq, Repr

/-- A tree of files and directories. The root is always there. -/
structure FileTree where
  nodes : List (Location × Node) := []
  deriving DecidableEq, Repr

namespace FileTree

/-- What stands at a location, if anything. -/
def find? (tree : FileTree) (location : Location) : Option Node :=
  if location = [] then some (.directory 0) else tree.nodes.lookup location

/-- Replaces the node of a location, or adds it behind the others. -/
def insertNode (location : Location) (node : Node) :
    List (Location × Node) → List (Location × Node)
  | [] => [(location, node)]
  | (other, present) :: rest =>
    if other = location then (location, node) :: rest
    else (other, present) :: insertNode location node rest

/-- The node that was inserted is found. -/
theorem lookup_insertNode_self (location : Location) (node : Node)
    (nodes : List (Location × Node)) :
    (insertNode location node nodes).lookup location = some node := by
  induction nodes with
  | nil => simp [insertNode]
  | cons first rest ih =>
    obtain ⟨other, present⟩ := first
    rw [insertNode]
    split
    next => simp
    next hne =>
      have : (location == other) = false := beq_false_of_ne (Ne.symm hne)
      simp [List.lookup_cons, this, ih]

/-- Every other location has the node it had. -/
theorem lookup_insertNode_of_ne {location other : Location} (h : other ≠ location) (node : Node)
    (nodes : List (Location × Node)) :
    (insertNode location node nodes).lookup other = nodes.lookup other := by
  have hother : (other == location) = false := beq_false_of_ne h
  induction nodes with
  | nil => simp [insertNode, List.lookup_cons, hother]
  | cons first rest ih =>
    obtain ⟨present, standing⟩ := first
    rw [insertNode]
    split
    next heq =>
      subst heq
      simp [List.lookup_cons, hother]
    next => simp only [List.lookup_cons, ih]

/-- The tree with a node at a location. -/
def insert (tree : FileTree) (location : Location) (node : Node) : FileTree :=
  ⟨insertNode location node tree.nodes⟩

/-- What was put at a location is found there. -/
theorem find?_insert_self (tree : FileTree) {location : Location} (h : location ≠ [])
    (node : Node) : (tree.insert location node).find? location = some node := by
  simp [find?, insert, h, lookup_insertNode_self]

/-- What stands at other locations stays. -/
theorem find?_insert_of_ne (tree : FileTree) {location other : Location} (h : other ≠ location)
    (node : Node) : (tree.insert location node).find? other = tree.find? other := by
  simp [find?, insert, lookup_insertNode_of_ne h]

/-- Whether a directory stands at a location. -/
def isDirectory (tree : FileTree) (location : Location) : Bool :=
  match tree.find? location with
  | some (.directory _) => true
  | _ => false

/-- The ways from a location to itself and to everything below it. A directory comes before what it
holds, and what it holds is in the order of the bytes of the names. -/
def ways (tree : FileTree) (location : Location) : List Location :=
  let below := tree.nodes.filterMap fun (other, _) =>
    if location.isPrefixOf other ∧ other ≠ location then some (other.drop location.length) else none
  [] :: below.mergeSort fun first second => !decide (second < first)

/-! ### Following paths -/

/-- A path as a file system walks it. -/
structure Route where
  start : Location
  /-- The segments between slashes, dots included. -/
  steps : List String
  /-- Whether the path ends in a slash and can only mean a directory. -/
  wantsDirectory : Bool
  deriving DecidableEq, Repr

/-- The most bytes of a path. -/
def pathLimit : Nat := 4095

/-- The most bytes of a name. -/
def nameLimit : Nat := 255

/-- A path is some text without a zero character, and not too long. -/
def checkPath (path : String) : Except IoError Unit :=
  if path.toList.contains '\x00' then
    .error (.worded .invalidInput "file name contained an unexpected NUL byte")
  else if path = "" then .error (.system .notFound)
  else if pathLimit < path.utf8ByteSize then .error (.system .invalidFilename)
  else .ok ()

/-- The route of a path that starts in a working directory unless it starts at the root. -/
def Route.ofPath (directory : Location) (path : String) : Except IoError Route := do
  checkPath path
  return {
    start := if path.toList.head? = some '/' then [] else directory
    steps := ((Path.segments path.toList).filter (· ≠ [])).map String.ofList
    wantsDirectory := path.toList.getLast? = some '/' }

/-- Whether a segment names an entry and no direction. -/
def isName (step : String) : Bool := step ≠ "." && step ≠ ".."

/-- Takes one step from a directory to a directory. -/
def stepInto (tree : FileTree) (location : Location) (step : String) : Except IoError Location :=
  if step = "." then .ok location
  else if step = ".." then .ok location.dropLast
  else if nameLimit < step.utf8ByteSize then .error (.system .invalidFilename)
  else match tree.find? (location ++ [step]) with
    | none => .error (.system .notFound)
    | some (.file _ _) => .error (.system .notADirectory)
    | some (.directory _) => .ok (location ++ [step])

/-- Takes steps from directory to directory. -/
def enter (tree : FileTree) : Location → List String → Except IoError Location
  | location, [] => .ok location
  | location, step :: rest =>
    match tree.stepInto location step with
    | .ok next => tree.enter next rest
    | .error error => .error error

/-- Follows a route to what stands at its end. -/
def resolve (tree : FileTree) (route : Route) : Except IoError (Location × Node) := do
  let parent ← tree.enter route.start route.steps.dropLast
  match route.steps.getLast? with
  | none => return (parent, .directory 0)
  | some step =>
    if isName step then
      if nameLimit < step.utf8ByteSize then throw (.system .invalidFilename)
      let location := parent ++ [step]
      match tree.find? location with
      | none => throw (.system .notFound)
      | some (.file bytes modified) =>
        if route.wantsDirectory then throw (.system .notADirectory)
        return (location, .file bytes modified)
      | some node => return (location, node)
    else
      let location ← tree.stepInto parent step
      return (location, (tree.find? location).getD (.directory 0))

/-- Makes an empty file at the end of a route, or empties the file that is there. -/
def createFile (tree : FileTree) (route : Route) (clock : Int) :
    Except IoError (Location × FileTree) := do
  let parent ← tree.enter route.start route.steps.dropLast
  match route.steps.getLast? with
  | none => throw (.system .isADirectory)
  | some step =>
    if !isName step ∨ route.wantsDirectory then throw (.system .isADirectory)
    if nameLimit < step.utf8ByteSize then throw (.system .invalidFilename)
    let location := parent ++ [step]
    if tree.isDirectory location then throw (.system .isADirectory)
    return (location, tree.insert location (.file #[] clock))

/-- Makes the directories along steps that are missing. A file in the way of the last one, or of
one below a directory that was made, exists already; any other file in the way is no directory. -/
def makeSteps (clock : Int) (made : Bool) :
    Location → List String → FileTree → EStateM.Result IoError FileTree Unit
  | _, [], tree => .ok () tree
  | location, step :: rest, tree =>
    if isName step then
      if nameLimit < step.utf8ByteSize then .error (.system .invalidFilename) tree
      else match tree.find? (location ++ [step]) with
        | some (.directory _) => makeSteps clock made (location ++ [step]) rest tree
        | some (.file _ _) =>
          .error (.system (if made || rest = [] then .alreadyExists else .notADirectory)) tree
        | none =>
          makeSteps clock true (location ++ [step]) rest
            (tree.insert (location ++ [step]) (.directory clock))
    else
      makeSteps clock made (if step = ".." then location.dropLast else location) rest tree

/-- Makes the directories along a route that are missing. -/
def makeDirectories (route : Route) (clock : Int) : EStateM IoError FileTree Unit :=
  makeSteps clock false route.start route.steps

end FileTree

end RecordArchive
