import RecordArchive.Archive.Packer
import RecordArchive.CommandLine.Session

/-! # The command to pack

`pack` makes an archive of files and directories. The entry of an input is named after the names
along its path; below a directory every file and directory gets an entry of its own, the directory
before what it holds. A directory is an entry without content, and every entry has the time of its
last change unless that lies before 1970. -/

namespace RecordArchive

namespace EntryInfo

/-- The metadata with the time of a node. -/
def withModified (info : EntryInfo) (modified : Int) : EntryInfo :=
  if 0 ≤ modified then info.withTimeStamp (UInt64.ofNat modified.toNat) else info

/-- The metadata for a file. -/
def ofFile (name : String) (bytes : Array UInt8) (modified : Int) : EntryInfo :=
  ((regular name).withUnpackedSize (UInt64.ofNat bytes.size)).withModified modified

/-- The metadata for a directory. -/
def ofDirectory (name : String) (modified : Int) : EntryInfo :=
  (directory name).withModified modified

end EntryInfo

namespace CommandLine

open OpenSession

/-- Copies a file into an entry. -/
def packFile (info : EntryInfo) (bytes : Array UInt8) : OpenProgram Unit := do
  writeArchive (Archive.beginFile info)
  let source : CopySource MemoryStream := { stream := { bytes } }
  writeArchive (CallWith.withValue source Archive.insertFileData)
  writeArchive Archive.endFile

/-- Packs what stands at a location under a name and says so. -/
def packNode (path name : String) (location : Location) : OpenProgram Unit := do
  let state ← get
  match state.tree.find? location with
  | some (.directory modified) => do
    writeArchive (Archive.addFile (EntryInfo.ofDirectory name modified) [])
    onSession (Session.print s!"  added   {name}/")
  | some (.file bytes modified) => do
    packFile (EntryInfo.ofFile name bytes modified) bytes
    onSession (Session.print s!"  packed  {path}")
  | none => throw (.file (.system .notFound))

/-- A text for a node that is found by a way from the node of another text. -/
def along (text : String) (way : Location) : String :=
  if way = [] then text else Path.join text (Path.ofNames way)

/-- Packs one of the nodes at and below an input. -/
def packWay (path name : String) (location way : Location) : OpenProgram Unit := do
  match FileTree.checkPath (along path way) with
  | .error error => throw (.file error)
  | .ok () => packNode (along path way) (along name way) (location ++ way)

/-- Packs an input and everything below it. -/
def packInput (path : String) : OpenProgram Unit := do
  match Path.entryName? path with
  | none => throw (.unnamed path)
  | some name => do
    let state ← get
    match state.locate path with
    | .error error => throw (.file error)
    | .ok (location, _) => (state.tree.ways location).forM (packWay path name location)

/-- Packs inputs into the archive that is open. -/
def packInputs (inputs : List String) : OpenProgram Unit := do
  writeArchive Archive.startWriting
  writeArchive Archive.initArchive
  inputs.forM packInput
  writeArchive Archive.finishWriting

/-- Packs files and directories into an archive. -/
def pack (output : String) (options : ArchiveOptions) (inputs : List String) : Program Unit := do
  let location ← EStateM.adaptExcept (fun error => .archive (.ofOpening error))
    (Session.createFile output)
  withArchive location (Archive.ofStream {} options) (packInputs inputs)
  Session.print s!"Created: {output}"

end CommandLine

end RecordArchive
