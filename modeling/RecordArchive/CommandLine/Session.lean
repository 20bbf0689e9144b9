import RecordArchive.Archive.Basic
import RecordArchive.FileTree
import RecordArchive.Stream.Memory

/-! # Sessions

A command runs in a session: a tree of files, a working directory, a clock and the lines shown so
far. It is a program that keeps the session after a failure, for the files made and the lines shown
until then stay. An `OpenSession` has an archive file open as well: `readArchive` and `writeArchive`
run calls on its handle, and every call that may write leaves what is on the handle's stream in the
file. -/

namespace RecordArchive.CommandLine

/-- Why a command fails. -/
inductive CommandError
  /-- The archive is at fault, or its file cannot be opened. -/
  | archive (error : ArchiveError)
  /-- Another file or directory is at fault. -/
  | file (error : IoError)
  /-- A path names nothing that an entry could be called. -/
  | unnamed (path : String)
  deriving DecidableEq, Repr

/-- The wording of a failure. -/
def CommandError.message : CommandError → String
  | archive error => error.message
  | file error => error.message
  | unnamed path => s!"cannot derive an entry name from {path}"

/-- What a command works on. -/
structure Session where
  tree : FileTree := {}
  /-- The working directory. -/
  directory : Location := []
  /-- The time, in seconds since the start of 1970. -/
  clock : Int := 0
  /-- The lines printed so far. -/
  output : Array String := #[]
  /-- The warnings given so far. -/
  warnings : Array String := #[]
  deriving DecidableEq, Repr

/-- A command, or a part of one. -/
abbrev Program := EStateM CommandError Session

namespace Session

/-- Prints a line. -/
def print (line : String) : Program Unit :=
  modify fun session => { session with output := session.output.push line }

/-- Prints lines one after the other. -/
def printAll (lines : List String) : Program Unit :=
  modify fun session => { session with output := session.output.appendList lines }

/-- Gives a warning. -/
def warn (text : String) : Program Unit :=
  modify fun session => { session with warnings := session.warnings.push text }

/-- What a path leads to. -/
def locate (session : Session) (path : String) : Except IoError (Location × Node) := do
  let route ← FileTree.Route.ofPath session.directory path
  session.tree.resolve route

/-- Makes the file that a path names, or empties it. -/
def createFile (path : String) : EStateM IoError Session Location := fun session =>
  let created := do
    let route ← FileTree.Route.ofPath session.directory path
    session.tree.createFile route session.clock
  match created with
  | .ok (location, tree) => .ok location { session with tree }
  | .error error => .error error session

/-- Makes the directories along a path that are missing. -/
def makeDirectories (path : String) : EStateM IoError Session Unit := fun session =>
  match FileTree.Route.ofPath session.directory path with
  | .error error => .error error session
  | .ok route =>
    match FileTree.makeDirectories route session.clock session.tree with
    | .ok () tree => .ok () { session with tree }
    | .error error tree => .error error { session with tree }

/-- A handle that reads the archive in a file. A directory can be opened but not read. -/
def openArchive (path : String) : Program (Location × Archive MemoryStream) := fun session =>
  match session.locate path with
  | .error error => .error (.archive (.ofOpening error)) session
  | .ok (_, .directory _) => .error (.archive (.read (.system .isADirectory))) session
  | .ok (location, .file bytes _) => .ok (location, Archive.reader { bytes }) session

end Session

/-- A session with an archive file open. -/
structure OpenSession extends Session where
  /-- Where the archive file is. -/
  location : Location
  archive : Archive MemoryStream

/-- A part of a command that has an archive file open. -/
abbrev OpenProgram := EStateM CommandError OpenSession

namespace OpenSession

variable {α : Type}

/-- A program on the session alone. -/
def onSession (program : Program α) : OpenProgram α := fun state =>
  match program state.toSession with
  | .ok value session => .ok value { state with toSession := session }
  | .error error session => .error error { state with toSession := session }

/-- Runs a program with an archive file open. -/
def withArchive (location : Location) (archive : Archive MemoryStream) (program : OpenProgram α) :
    Program α := fun session =>
  match program { session with location, archive } with
  | .ok value state => .ok value state.toSession
  | .error error state => .error error state.toSession

/-- A call that only reads the archive. -/
def readArchive (call : Call MemoryStream α) : OpenProgram α := fun state =>
  match call state.archive with
  | .ok value archive => .ok value { state with archive }
  | .error error archive => .error (.archive error) { state with archive }

/-- The state with the bytes of a handle in the file. -/
def store (state : OpenSession) (archive : Archive MemoryStream) : OpenSession :=
  { state with
    archive
    tree := state.tree.insert state.location (.file archive.stream.bytes state.clock) }

/-- A call that may write the archive. -/
def writeArchive (call : Call MemoryStream α) : OpenProgram α := fun state =>
  match call state.archive with
  | .ok value archive => .ok value (state.store archive)
  | .error error archive => .error (.archive error) (state.store archive)

/-- The state after a file was emptied, which may be that of the archive. -/
def emptied (state : OpenSession) (location : Location) : OpenSession :=
  if location = state.location then
    { state with
      archive := { state.archive with stream := { state.archive.stream with bytes := #[] } } }
  else state

/-- Makes or empties the file that a path names. -/
def createFile (path : String) : OpenProgram Location := fun state =>
  match Session.createFile path state.toSession with
  | .ok location session =>
    .ok location (OpenSession.emptied { state with toSession := session } location)
  | .error error session => .error (.file error) { state with toSession := session }

/-- Makes the directories along a path that are missing. -/
def makeDirectories (path : String) : OpenProgram Unit :=
  onSession (EStateM.adaptExcept .file (Session.makeDirectories path))

/-- A bound on the bytes that are still to be read from the archive. -/
def readBudget (state : OpenSession) : Nat := Archive.readBudget state.archive

/-- A program on the session alone takes nothing from the archive. -/
theorem onSession_spends (program : Program α) :
    Spends readBudget (fun _ => 0) (onSession program) := by
  intro state
  unfold onSession
  cases program state.toSession <;> simp only [Within, readBudget] <;> omega

/-- A call takes from the archive what it takes from the handle. -/
theorem readArchive_spends {cost : α → Nat} {call : Call MemoryStream α}
    (h : Spends Archive.readBudget cost call) : Spends readBudget cost (readArchive call) := by
  intro state
  have hcall := h state.archive
  unfold readArchive
  cases hrun : call state.archive <;> simpa only [hrun, Within, readBudget] using hcall

/-- An emptied file has no more to read than before. -/
theorem readBudget_emptied_le (state : OpenSession) (location : Location) :
    readBudget (state.emptied location) ≤ readBudget state := by
  unfold emptied
  split
  next =>
    simp only [readBudget, Archive.readBudget, ByteSource.readBudget, MemoryStream.remaining,
      List.size_toArray, List.length_nil]
    omega
  next => exact Nat.le_refl _

/-- Creating a file takes nothing from the archive. -/
theorem createFile_spends (path : String) :
    Spends readBudget (fun _ => 0) (createFile path) := by
  intro state
  unfold createFile
  cases hrun : Session.createFile path state.toSession with
  | ok location session => exact readBudget_emptied_le { state with toSession := session } location
  | error error session => exact Nat.le_refl _

end OpenSession

end RecordArchive.CommandLine
