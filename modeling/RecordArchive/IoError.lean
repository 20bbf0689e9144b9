/-! # Failures of streams and file systems

A failure has a kind, on which callers decide, and a text. A failure that the operating system
reports has no text of its own and is described by its kind. -/

namespace RecordArchive

/-- The kinds of failure that a stream or a file system reports. -/
inductive IoErrorKind
  | notFound
  | permissionDenied
  | connectionRefused
  | connectionReset
  | hostUnreachable
  | networkUnreachable
  | connectionAborted
  | notConnected
  | addressInUse
  | addressNotAvailable
  | networkDown
  | brokenPipe
  | alreadyExists
  | wouldBlock
  | notADirectory
  | isADirectory
  | directoryNotEmpty
  | readOnlyFilesystem
  | staleNetworkFileHandle
  | invalidInput
  | invalidData
  | timedOut
  | writeZero
  | storageFull
  | notSeekable
  | quotaExceeded
  | fileTooLarge
  | resourceBusy
  | executableFileBusy
  | deadlock
  | crossesDevices
  | tooManyLinks
  | invalidFilename
  | argumentListTooLong
  | interrupted
  | unsupported
  | unexpectedEof
  | outOfMemory
  | other
  deriving DecidableEq, Repr

/-- What a kind of failure is called where no text says more. -/
def IoErrorKind.description : IoErrorKind → String
  | notFound => "no such file or directory"
  | permissionDenied => "permission denied"
  | connectionRefused => "connection refused"
  | connectionReset => "connection reset"
  | hostUnreachable => "host unreachable"
  | networkUnreachable => "network unreachable"
  | connectionAborted => "connection aborted"
  | notConnected => "not connected"
  | addressInUse => "address in use"
  | addressNotAvailable => "address not available"
  | networkDown => "network down"
  | brokenPipe => "broken pipe"
  | alreadyExists => "file exists"
  | wouldBlock => "operation would block"
  | notADirectory => "not a directory"
  | isADirectory => "is a directory"
  | directoryNotEmpty => "directory not empty"
  | readOnlyFilesystem => "read-only file system"
  | staleNetworkFileHandle => "stale network file handle"
  | invalidInput => "invalid input"
  | invalidData => "invalid data"
  | timedOut => "timed out"
  | writeZero => "write zero"
  | storageFull => "no storage space"
  | notSeekable => "seek on unseekable file"
  | quotaExceeded => "quota exceeded"
  | fileTooLarge => "file too large"
  | resourceBusy => "resource busy"
  | executableFileBusy => "executable file busy"
  | deadlock => "deadlock"
  | crossesDevices => "cross-device link or rename"
  | tooManyLinks => "too many links"
  | invalidFilename => "invalid file name"
  | argumentListTooLong => "argument list too long"
  | interrupted => "operation interrupted"
  | unsupported => "unsupported"
  | unexpectedEof => "unexpected end of file"
  | outOfMemory => "out of memory"
  | other => "other error"

/-- One failure of a stream or a file system. -/
structure IoError where
  kind : IoErrorKind
  /-- The text of the failure, or `none` when the operating system reported it. -/
  text? : Option String
  deriving DecidableEq, Repr

namespace IoError

/-- A failure with a text of its own. -/
def worded (kind : IoErrorKind) (text : String) : IoError := ⟨kind, some text⟩

/-- A failure reported by the operating system. -/
def system (kind : IoErrorKind) : IoError := ⟨kind, none⟩

/-- The wording of a failure. -/
def message (error : IoError) : String := error.text?.getD error.kind.description

/-- An interrupted transfer moved nothing and is simply tried again. -/
def isInterrupted (error : IoError) : Bool := error.kind = .interrupted

end IoError

end RecordArchive
