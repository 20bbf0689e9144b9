import RecordArchive.Archive.Walk
import RecordArchive.CommandLine.Session
import RecordArchive.Stream.BoundedSink
import RecordArchive.Text.Quoted

/-! # The command to unpack

`unpack` makes the files and directories that the entries of an archive describe, below one
directory. An entry whose name could lead elsewhere, or whose kind is unknown, is skipped with a
warning. A file that fails while it is unpacked keeps what was written to it. -/

namespace RecordArchive.CommandLine

open OpenSession

/-- Copies the content of the current entry into the file at a location. -/
def extractTo (location : Location) : OpenProgram Unit := fun state =>
  let written (copy : CopySink BoundedSink) (archive : Archive MemoryStream) : OpenSession :=
    { state with
      archive
      tree := state.tree.insert location (.file copy.stream.bytes state.clock) }
  match Archive.extract (({ stream := {} } : CopySink BoundedSink), state.archive) with
  | .ok () (copy, archive) => .ok () (written copy archive)
  | .error error (copy, archive) => .error (.archive error) (written copy archive)

/-- Extraction into a file gives nothing back to the archive. -/
theorem extractTo_spends (location : Location) :
    Spends readBudget (fun _ => 0) (extractTo location) := by
  intro state
  have hextract := Archive.extract_spends ((⟨{}, 0⟩ : CopySink BoundedSink), state.archive)
  unfold extractTo
  cases hrun : Archive.extract ((⟨{}, 0⟩ : CopySink BoundedSink), state.archive) <;>
    simpa only [hrun, Within, readBudget, Archive.copyBudget] using hextract

/-- Skips the current entry with a warning. -/
def skipWith (warning : String) : OpenProgram Unit := do
  onSession (Session.warn warning)
  readArchive Archive.skipFile

/-- The directory of the file that names lead to from another directory. It ends in a step, so that
a file in its place is in the way and is not taken for a way further. -/
def parentPath (directory : String) (names : List String) : String :=
  Path.trimEnd (Path.join directory (Path.ofNames names.dropLast))

/-- Makes the directory that names lead to. -/
def unpackDirectory (directory : String) (names : List String) : OpenProgram Unit := do
  makeDirectories (Path.join directory (Path.ofNames names))
  readArchive Archive.skipFile

/-- Makes the file that names lead to, in a directory that is made if it is missing. -/
def unpackFile (directory : String) (names : List String) : OpenProgram Unit := do
  makeDirectories (parentPath directory names)
  let location ← createFile (Path.join directory (Path.ofNames names))
  extractTo location

/-- Unpacks the current entry. -/
def unpackEntry (directory : String) (info : EntryInfo) : OpenProgram Unit := do
  let quoted := Text.quoted info.name
  match Path.safeNames? info.name, info.kind with
  | none, _ => skipWith s!"skipping entry with unsafe name {quoted}"
  | some names, .directory => unpackDirectory directory names
  | some names, .regular => do
    unpackFile directory names
    onSession (Session.print s!"  unpacked {info.name}")
  | some _, .unknown _ => skipWith s!"skipping {quoted}: unknown file type {info.kind.label}"

/-- Unpacks the next entry, and stops when there is none. -/
def unpackNext (directory : String) : OpenProgram (Option Unit) := do
  let found? ← readArchive Archive.nextEntry
  match found? with
  | none => pure (some ())
  | some info => do
    unpackEntry directory info
    pure none

/-- To skip an entry with a warning gives nothing back to the archive. -/
theorem skipWith_spends (warning : String) :
    Spends readBudget (fun _ => 0) (skipWith warning) :=
  Spends.bind_of_free (onSession_spends _) fun _ => readArchive_spends Archive.skipFile_spends

/-- A directory has no content that would be taken from the archive. -/
theorem unpackDirectory_spends (directory : String) (names : List String) :
    Spends readBudget (fun _ => 0) (unpackDirectory directory names) :=
  Spends.bind_of_free (onSession_spends _) fun _ => readArchive_spends Archive.skipFile_spends

/-- The content of a file is taken from the archive. -/
theorem unpackFile_spends (directory : String) (names : List String) :
    Spends readBudget (fun _ => 0) (unpackFile directory names) := by
  refine Spends.bind_of_free (onSession_spends _) fun _ => ?_
  exact Spends.bind_of_free (createFile_spends _) fun _ => extractTo_spends _

/-- An entry of any kind gives nothing back to the archive. -/
theorem unpackEntry_spends (directory : String) (info : EntryInfo) :
    Spends readBudget (fun _ => 0) (unpackEntry directory info) := by
  unfold unpackEntry
  split
  next => exact skipWith_spends _
  next => exact unpackDirectory_spends _ _
  next =>
    exact Spends.bind_of_free (unpackFile_spends _ _) fun _ => onSession_spends _
  next => exact skipWith_spends _

/-- An entry is at least one byte. -/
theorem unpackNext_spends (directory : String) :
    Spends readBudget roundCost (unpackNext directory) := by
  refine Spends.bind (fun found? round => roundCost round - Archive.foundCost found?)
    (readArchive_spends Archive.nextEntry_spends) (fun found? => ?_) (fun _ _ => by omega)
  cases found? with
  | none => exact Spends.pure _ rfl
  | some info =>
    exact Spends.bind_of_free (unpackEntry_spends _ _) fun _ => Spends.pure _ rfl

/-- Unpacks all entries of the archive that is open. -/
def unpackEntries (directory : String) : OpenProgram Unit := do
  let _ ← readArchive Archive.readArchiveHeader
  repeatUntil (unpackNext directory) readBudget (unpackNext_spends directory)

/-- Unpacks an archive into a directory. -/
def unpack (input directory : String) : Program Unit := do
  let (location, archive) ← Session.openArchive input
  withArchive location archive (unpackEntries directory)
  Session.print s!"Unpacked to: {directory}"

end RecordArchive.CommandLine
