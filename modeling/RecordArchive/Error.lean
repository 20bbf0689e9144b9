import RecordArchive.Cursor
import RecordArchive.IoError
import RecordArchive.Record.Kind
import RecordArchive.Text.Layout
import RecordArchive.Text.Utf8

/-! # What can go wrong with an archive

`ArchiveError` is the one error type of every layer. Its constructors are the classes that callers
tell apart, the causes inside a class say what was found, and `ArchiveError.message` is the only
place that words them. `ArchiveError.eof` is no fault: it says that a stream ended exactly between
two records. -/

namespace RecordArchive

/-- Why a request cannot be met. -/
inductive ParameterFault
  /-- A payload size needs more than the `width` bytes of its field. -/
  | addedSizeTooLarge (size : UInt64) (width : Nat)
  /-- Header and data exceed what the size field of a record can say. -/
  | recordTooLong (size : Nat)
  /-- The size field of a record disagrees with its flags and data. -/
  | layoutMismatch (stored : UInt16) (layout : Nat)
  /-- An entry name exceeds what its length field can say. -/
  | nameTooLong (length : Nat)
  /-- A streamed payload outgrew the `width` bytes of its size field. -/
  | payloadTooLong (width : Nat)
  /-- A record to be streamed has no field for the size of its payload. -/
  | missingAddedSize
  /-- A fault in the words of whoever reported it. -/
  | reported (text : String)
  deriving DecidableEq, Repr

/-- The wording of a fault in a request. -/
def ParameterFault.message : ParameterFault → String
  | addedSizeTooLarge size width => s!"added size {size.toNat} does not fit a {width}-byte field"
  | recordTooLong size => s!"record of {size} bytes exceeds the 65535-byte limit"
  | layoutMismatch stored layout =>
    s!"head_size {stored.toNat} disagrees with the {layout}-byte layout"
  | nameTooLong length => s!"file name of {length} bytes is too long"
  | payloadTooLong width => s!"payload exceeds the {width}-byte size field"
  | missingAddedSize => "streamed record must declare an added size"
  | reported text => text

/-- Why a stream is no archive that can be read. -/
inductive FormatFault
  /-- The stream ended after `consumed` bytes without a marker. -/
  | missingMarker (consumed : Nat)
  /-- The archive is of a later version than the supported one. -/
  | newerVersion (version supported : UInt16)
  /-- A fault in the words of whoever reported it. -/
  | reported (text : String)
  deriving DecidableEq, Repr

/-- The wording of a fault in the format. -/
def FormatFault.message : FormatFault → String
  | missingMarker consumed => s!"no archive marker in {consumed} byte(s)"
  | newerVersion version supported =>
    s!"archive version {version.toNat} is newer than supported version {supported.toNat}"
  | reported text => text

/-- Why bytes that were read cannot be believed. -/
inductive DataFault
  /-- A field lies outside the bytes that should hold it. -/
  | outOfBounds (fault : OutOfBounds)
  /-- A record claims to be shorter than its own header. -/
  | sizeBelowHeader (size : UInt16) (header : Nat)
  /-- The checksum of the archive header does not match. -/
  | archiveHeaderChecksum
  /-- Another record stands where the archive header belongs. -/
  | notArchiveHeader (found : RecordKind)
  /-- The archive header has no room for a version. -/
  | archiveHeaderTooShort (size : UInt16)
  /-- The checksum of a file header does not match. -/
  | fileHeaderChecksum
  /-- Another record stands where a file header belongs. -/
  | notFileHeader (found : RecordKind)
  /-- An entry name is no text. -/
  | nameNotUtf8 (fault : Text.Utf8.Fault)
  /-- Another record stands where the content of an entry continues. -/
  | notDataFragment (found : RecordKind)
  /-- The checksum of a data fragment does not match. -/
  | fragmentChecksum
  /-- The record at an entry boundary is no file header or is damaged. -/
  | misplacedFileHeader
  /-- The content of an entry is not as long as its header says. -/
  | entrySize (name : String) (expected found : Nat)
  /-- The content of an entry does not have the checksum that its header gives. -/
  | entryChecksum (name : String)
  /-- A payload does not have the checksum that its record gives. -/
  | payloadChecksum (stored computed : UInt32)
  /-- A fault in the words of whoever reported it. -/
  | reported (text : String)
  deriving DecidableEq, Repr

/-- The wording of a fault in the data. -/
def DataFault.message : DataFault → String
  | outOfBounds fault => fault.message
  | sizeBelowHeader size header =>
    s!"head_size {size.toNat} is smaller than the {header}-byte header"
  | archiveHeaderChecksum => "archive header checksum mismatch"
  | notArchiveHeader found => s!"expected an archive header record, found {found.name}"
  | archiveHeaderTooShort size => s!"archive header of {size.toNat} bytes is too short"
  | fileHeaderChecksum => "file header checksum mismatch"
  | notFileHeader found => s!"expected a file header record, found {found.name}"
  | nameNotUtf8 fault => s!"file name is not UTF-8: {fault.message}"
  | notDataFragment found => s!"expected a data fragment, found {found.name}"
  | fragmentChecksum => "data fragment checksum mismatch"
  | misplacedFileHeader => "corrupt or misplaced file header"
  | entrySize name expected found => s!"{name}: expected {expected} bytes, found {found}"
  | entryChecksum name => s!"{name}: file checksum mismatch"
  | payloadChecksum stored computed =>
    let storedText := Text.hexNumber 8 stored.toNat
    let computedText := Text.hexNumber 8 computed.toNat
    s!"added data checksum mismatch: stored {storedText}, computed {computedText}"
  | reported text => text

/-- The failure of a call. -/
inductive ArchiveError
  /-- The request cannot be met. -/
  | invalidParameter (fault : ParameterFault)
  /-- The stream is no archive that can be read. -/
  | invalidFormat (fault : FormatFault)
  /-- The archive is damaged. -/
  | invalidData (fault : DataFault)
  /-- The named call is not legal in the state of the handle. -/
  | invalidState (call : String)
  /-- The file to open does not exist. -/
  | fileNotFound (cause : IoError)
  /-- The file may not be opened. -/
  | accessDenied (cause : IoError)
  /-- There is no memory left. -/
  | outOfMemory
  /-- Reading failed. -/
  | read (cause : IoError)
  /-- Writing or seeking failed. -/
  | write (cause : IoError)
  /-- The stream ended at a record boundary. -/
  | eof
  /-- The stream ended inside a structure. -/
  | prematureEof
  /-- Opening a file failed in another way. -/
  | unknown (cause : IoError)
  deriving DecidableEq, Repr

namespace ArchiveError

/-- The wording of a failure. -/
def message : ArchiveError → String
  | invalidParameter fault => s!"Invalid parameter: {fault.message}"
  | invalidFormat fault => s!"Invalid archive format: {fault.message}"
  | invalidData fault => s!"Invalid data: {fault.message}"
  | invalidState call => s!"Invalid state for {call}"
  | fileNotFound cause => s!"File not found: {cause.message}"
  | accessDenied cause => s!"Access denied: {cause.message}"
  | outOfMemory => "Out of memory"
  | read cause => s!"Read error: {cause.message}"
  | write cause => s!"Write error: {cause.message}"
  | eof => "End of file"
  | prematureEof => "Premature end of file"
  | unknown cause => s!"Unknown error: {cause.message}"

/-- The stream failure inside an error, if there is one. -/
def cause? : ArchiveError → Option IoError
  | fileNotFound cause | accessDenied cause | read cause | write cause | unknown cause => some cause
  | _ => none

/-- The clean end of an archive. -/
def isEof : ArchiveError → Bool
  | eof => true
  | _ => false

/-- The class of a failure to open or create a file. -/
def ofOpening (cause : IoError) : ArchiveError :=
  match cause.kind with
  | .notFound => fileNotFound cause
  | .permissionDenied => accessDenied cause
  | .outOfMemory => outOfMemory
  | .invalidInput => invalidParameter (.reported cause.message)
  | _ => unknown cause

/-- The kind that stands for a class of errors towards users of plain streams. -/
def ioKind : ArchiveError → IoErrorKind
  | fileNotFound cause | accessDenied cause | read cause | write cause | unknown cause => cause.kind
  | eof | prematureEof => .unexpectedEof
  | invalidParameter _ => .invalidInput
  | outOfMemory => .outOfMemory
  | invalidFormat _ | invalidData _ | invalidState _ => .invalidData

/-- An error as a user of plain streams sees it: a stream failure is itself, any other is worded. -/
def toIoError (error : ArchiveError) : IoError :=
  error.cause?.getD (.worded error.ioKind error.message)

end ArchiveError

end RecordArchive
