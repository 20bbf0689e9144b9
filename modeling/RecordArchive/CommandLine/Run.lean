import RecordArchive.CommandLine.Arguments
import RecordArchive.CommandLine.Listing
import RecordArchive.CommandLine.Pack
import RecordArchive.CommandLine.Unpack

/-! # Running command lines

`run` carries out a command line in a session and gives its outcome. A command line that is refused
leaves the session as it is. -/

namespace RecordArchive.CommandLine

namespace Command

/-- The paths that a command line names. -/
def paths : Command → List String
  | pack output _ inputs => output :: inputs
  | unpack input outputDirectory => [input, outputDirectory]
  | list input _ => [input]
  | records input => [input]

/-- Carries out a command. -/
def run : Command → Program Unit
  | pack output options inputs => CommandLine.pack output options inputs
  | unpack input outputDirectory => CommandLine.unpack input outputDirectory
  | list input json => CommandLine.list input json
  | records input => CommandLine.records input

end Command

/-- How a command line ends. -/
inductive Outcome
  /-- The command was carried out. -/
  | done
  /-- The command failed. -/
  | failed (error : CommandError)
  /-- The command line was not understood, or only asked for information. -/
  | refused (error : UsageError)
  deriving DecidableEq, Repr

/-- The exit code for an outcome. -/
def Outcome.exitCode : Outcome → UInt32
  | done => 0
  | failed _ => 1
  | refused error => if error.isInquiry then 0 else 2

/-- Carries out a command line. -/
def run (arguments : List String) (session : Session) : Outcome × Session :=
  match Command.parse arguments with
  | .error error => (.refused error, session)
  | .ok command =>
    match command.run session with
    | .ok () session => (.done, session)
    | .error error session => (.failed error, session)

/-- The text that explains the command lines. -/
def usage : List String := [
  "Commands:",
  "  pack (c) --output FILE [--chunk-size KIB] [--no-crc] INPUT...",
  "  unpack (x) [--output-dir DIRECTORY] ARCHIVE",
  "  list [--json] ARCHIVE",
  "  records ARCHIVE"]

end RecordArchive.CommandLine
