import RecordArchive.Archive.Walk
import RecordArchive.Calendar
import RecordArchive.CommandLine.Session

/-! # The commands to list

`list` shows the entries of an archive as a table or as JSON, `records` its records, one line each.
The lines of the records in front of a fault are still shown. -/

namespace RecordArchive.CommandLine

open Text (alignLeft alignRight)

/-- The text of an optional fact, a dash if it is absent. -/
def orDash {α : Type} (text : α → String) (value? : Option α) : String := value?.elim "-" text

/-- The columns of the table of entries. -/
def entryRow (name kind size crc modified : String) : String :=
  " ".intercalate [alignLeft 40 name, alignLeft 5 kind, alignRight 12 size, alignRight 10 crc, "",
    modified]

/-- The line above the table. -/
def entryHeading : String := entryRow "Name" "Type" "Size" "CRC32C" "Modified"

/-- The line of an entry. -/
def entryLine (info : EntryInfo) : String :=
  entryRow info.name info.kind.label (orDash (fun size => toString size.toNat) info.unpackedSize?)
    (orDash (fun crc => Text.hex 8 crc.toNat) info.crc?)
    (orDash (fun time => Calendar.format time.toNat) info.timeStamp?)

/-- The entries as a table. -/
def entryTable (path : String) (header : ArchiveHeader) (entries : List EntryInfo) : List String :=
  s!"Archive: {path} (version {header.version.toNat})" :: entryHeading :: entries.map entryLine

/-- The entries as JSON. -/
def entryJson (entries : List EntryInfo) : String :=
  (Text.JsonValue.array (entries.map EntryInfo.toJson)).prettyText

/-- Reads the archive header and the metadata of all entries. -/
def surveyEntries : CallWith (Array EntryInfo) MemoryStream ArchiveHeader := do
  let header ← Call.lift Archive.readArchiveHeader
  Archive.collectEntries
  pure header

/-- Lists the entries of an archive. -/
def list (input : String) (json : Bool) : Program Unit := do
  let (_, archive) ← Session.openArchive input
  match surveyEntries (#[], archive) with
  | .error error _ => throw (.archive error)
  | .ok header (entries, _) =>
    Session.printAll
      (if json then [entryJson entries.toList] else entryTable input header entries.toList)

/-- The most data bytes of a record that are shown. -/
def shownBytes : Nat := 16

/-- The line of a record. -/
def recordLine (position : Nat) (record : Record) : String :=
  let flags := Text.hexNumber 2 record.flags.toNat
  let size := alignLeft 5 (toString record.size.toNat)
  let payload := alignLeft 10 (toString record.addedSize.toNat)
  let verdict := if record.isValid then "ok " else "BAD"
  let data := Text.hexBytes (record.data.take shownBytes)
  let more := if shownBytes < record.data.length then "…" else ""
  alignRight 10 (toString position) ++ "  " ++ alignLeft 14 record.kind.name
    ++ s!" flags={flags} head_size={size} added_size={payload} {verdict}  {data}{more}"

/-- Shows the records from here to the end. -/
def listRecords (archive : Archive MemoryStream) : Program Unit := do
  let lines (found : Array (Nat × Record)) : List String :=
    found.toList.map fun (position, record) => recordLine position record
  match Archive.collectRecords (#[], archive) with
  | .ok () (found, _) => Session.printAll (lines found)
  | .error error (found, _) => do
    Session.printAll (lines found)
    throw (.archive error)

/-- Lists the records of an archive. -/
def records (input : String) : Program Unit := do
  let (_, archive) ← Session.openArchive input
  match (Archive.findMarker : Call MemoryStream Nat) archive with
  | .error error _ => throw (.archive error)
  | .ok consumed archive => do
    Session.print s!"marker at offset {consumed - Marker.length}"
    listRecords archive

end RecordArchive.CommandLine
