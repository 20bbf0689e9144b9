import RecordArchive.Archive.Basic

/-! # Command lines

`Command.parse` reads the arguments of a run. An option is given by its long name or its letter, its
value follows as the next argument, behind an equals sign or, for a letter, directly; letters
without value may share a dash. Two dashes end the options. A request that cannot be read is
answered by the kind of its first error; an argument that is still waiting for its value, or whose
value is still to be checked, is settled when the next one begins. -/

namespace RecordArchive.CommandLine

/-- Why a command line is not carried out. -/
inductive UsageError
  /-- A required argument is not given. -/
  | missingArgument
  /-- The first argument is no command. -/
  | unknownCommand
  /-- An option does not exist, or there are too many arguments. -/
  | unknownArgument
  /-- An option has no value, or a path is empty. -/
  | missingValue
  /-- A number is malformed. -/
  | malformedValue
  /-- An option without value is given one. -/
  | unexpectedValue
  /-- An option is given twice. -/
  | repeatedArgument
  /-- The user asks for help. -/
  | helpRequested
  /-- The user asks for the version. -/
  | versionRequested
  /-- Nothing is given. -/
  | nothingGiven
  deriving DecidableEq, Repr

namespace UsageError

/-- The wording of a refusal. -/
def message : UsageError → String
  | missingArgument => "a required argument is missing"
  | unknownCommand => "there is no such command"
  | unknownArgument => "there is an unknown or excess argument"
  | missingValue => "an option has no value, or a path is empty"
  | malformedValue => "a number is malformed"
  | unexpectedValue => "an option takes no value"
  | repeatedArgument => "an option is given twice"
  | helpRequested => "help"
  | versionRequested => "version"
  | nothingGiven => "a command is missing"

/-- Whether the user asked for nothing but information. -/
def isInquiry (error : UsageError) : Bool := error = helpRequested || error = versionRequested

end UsageError

/-- The options of all commands. -/
inductive OptionName
  | output
  | chunkSize
  | noCrc
  | outputDir
  | json
  | help
  deriving DecidableEq, Repr

/-- How an option is written. -/
structure OptionForm where
  name : OptionName
  long : String
  letter? : Option Char := none
  takesValue : Bool := false
  deriving DecidableEq, Repr

/-- The arguments that a command takes. -/
structure Grammar where
  options : List OptionForm
  /-- Whether more than one input may be given. -/
  manyInputs : Bool
  deriving DecidableEq, Repr

/-- The option for help, which every command has. -/
def helpOption : OptionForm := { name := .help, long := "help", letter? := some 'h' }

/-- The arguments of packing. -/
def packGrammar : Grammar :=
  { options := [
      { name := .output, long := "output", letter? := some 'o', takesValue := true },
      { name := .chunkSize, long := "chunk-size", takesValue := true },
      { name := .noCrc, long := "no-crc" },
      helpOption]
    manyInputs := true }

/-- The arguments of unpacking. -/
def unpackGrammar : Grammar :=
  { options := [
      { name := .outputDir, long := "output-dir", letter? := some 'C', takesValue := true },
      helpOption]
    manyInputs := false }

/-- The arguments of listing entries. -/
def listGrammar : Grammar :=
  { options := [{ name := .json, long := "json" }, helpOption], manyInputs := false }

/-- The arguments of listing records. -/
def recordsGrammar : Grammar := { options := [helpOption], manyInputs := false }

/-- The argument that was begun last and is not settled yet. -/
inductive PendingArgument
  | nothing
  /-- An option with the value that was found for it. -/
  | option (form : OptionForm) (value? : Option String)
  /-- Inputs in a row. -/
  | inputs (values : List String)
  deriving DecidableEq, Repr

/-- The arguments found so far. -/
structure Findings where
  /-- The options and their values; an option without value has an empty one. -/
  options : List (OptionName × String) := []
  inputs : List String := []
  pending : PendingArgument := .nothing
  deriving DecidableEq, Repr

namespace Findings

/-- The number that a text spells, which has to fit 64 bits. -/
def number? (text : String) : Option Nat :=
  let digits := match text.toList with
    | '+' :: digits => digits
    | digits => digits
  let value := digits.foldl (fun value c => 10 * value + (c.toNat - '0'.toNat)) 0
  if digits ≠ [] && digits.all Char.isDigit && value < UInt64.size then some value else none

/-- Whether a value suits its option. -/
def checkValue (name : OptionName) (value : String) : Except UsageError Unit :=
  match name with
  | .output | .outputDir => if value = "" then .error .missingValue else .ok ()
  | .chunkSize => if (number? value).isSome then .ok () else .error .malformedValue
  | _ => .ok ()

/-- Takes an option with its value. -/
def addOption (findings : Findings) (form : OptionForm) (value : String) :
    Except UsageError Findings :=
  if (findings.options.lookup form.name).isSome then .error .repeatedArgument
  else match checkValue form.name value with
    | .ok () => .ok { findings with options := findings.options ++ [(form.name, value)] }
    | .error error => .error error

/-- Settles the argument that was begun last. -/
def settle (findings : Findings) : Except UsageError Findings :=
  let settled := { findings with pending := .nothing }
  match findings.pending with
  | .nothing => .ok settled
  | .option _ none => .error .missingValue
  | .option form (some value) => settled.addOption form value
  | .inputs values =>
    if values.contains "" then .error .missingValue
    else .ok { settled with inputs := findings.inputs ++ values }

/-- Begins an option. -/
def beginOption (findings : Findings) (form : OptionForm) (value? : Option String) :
    Except UsageError Findings := do
  let settled ← findings.settle
  if form.takesValue then
    match value? with
    | some value => settled.addOption form value
    | none => return { settled with pending := .option form none }
  else if form.name = .help then throw .helpRequested
  else settled.addOption form ""

/-- Takes letters behind one dash. -/
def addLetters (grammar : Grammar) : List Char → Findings → Except UsageError Findings
  | [], findings => .ok findings
  | letter :: rest, findings =>
    match grammar.options.find? fun form => form.letter? = some letter with
    | none => .error .unknownArgument
    | some form =>
      if form.takesValue then
        findings.beginOption form (match rest with
          | [] => none
          | '=' :: value => some (String.ofList value)
          | value => some (String.ofList value))
      else match findings.beginOption form none with
        | .ok next => addLetters grammar rest next
        | .error error => .error error

/-- Takes an option by its long name, behind which an equals sign may introduce a value. -/
def addLong (grammar : Grammar) (text : List Char) (findings : Findings) :
    Except UsageError Findings :=
  let name := String.ofList (text.takeWhile (· ≠ '='))
  let value? := match text.dropWhile (· ≠ '=') with
    | [] => none
    | _ :: value => some (String.ofList value)
  match grammar.options.find? fun form => form.long = name with
  | none => .error .unknownArgument
  | some form =>
    if !form.takesValue ∧ value?.isSome then .error .unexpectedValue
    else findings.beginOption form value?

/-- Takes an input. -/
def addInput (grammar : Grammar) (input : String) (findings : Findings) :
    Except UsageError Findings :=
  match findings.pending with
  | .inputs values =>
    if grammar.manyInputs then .ok { findings with pending := .inputs (values ++ [input]) }
    else .error .unknownArgument
  | _ =>
    if findings.inputs ≠ [] ∧ !grammar.manyInputs then .error .unknownArgument
    else match findings.settle with
      | .ok settled => .ok { settled with pending := .inputs [input] }
      | .error error => .error error

/-- Takes an argument in front of the two dashes that end the options. -/
def addArgument (grammar : Grammar) (argument : String) (findings : Findings) :
    Except UsageError Findings :=
  match argument.toList with
  | '-' :: '-' :: text => findings.addLong grammar text
  | '-' :: letter :: rest => findings.addLetters grammar (letter :: rest)
  | _ => match findings.pending with
    | .option form none => .ok { findings with pending := .option form (some argument) }
    | _ => findings.addInput grammar argument

/-- Takes arguments one after the other and settles the last one. -/
def addAll (grammar : Grammar) :
    (ended : Bool) → List String → Findings → Except UsageError Findings
  | _, [], findings => findings.settle
  | ended, argument :: rest, findings =>
    if ended then
      match findings.addInput grammar argument with
      | .ok next => addAll grammar true rest next
      | .error error => .error error
    else if argument = "--" then addAll grammar true rest findings
    else match findings.addArgument grammar argument with
      | .ok next => addAll grammar false rest next
      | .error error => .error error

/-- The value of an option, if it was given. -/
def value? (findings : Findings) (name : OptionName) : Option String :=
  findings.options.lookup name

/-- The arguments of a command. -/
def ofArguments (grammar : Grammar) (arguments : List String) : Except UsageError Findings :=
  addAll grammar false arguments {}

end Findings

/-- What a run is to do. -/
inductive Command
  /-- Packs files and directories into an archive. -/
  | pack (output : String) (options : ArchiveOptions) (inputs : List String)
  /-- Unpacks an archive into a directory. -/
  | unpack (input outputDirectory : String)
  /-- Lists the entries of an archive. -/
  | list (input : String) (json : Bool)
  /-- Lists the records of an archive. -/
  | records (input : String)
  deriving DecidableEq, Repr

namespace Command

/-- The number of bytes in the unit in which a copy size is given. -/
def copyUnit : Nat := 1024

/-- The copy size that is used unless one is given, in the same unit. -/
def defaultCopySize : Nat := 64

/-- Reads the arguments of packing. -/
def parsePack (arguments : List String) : Except UsageError Command := do
  let findings ← Findings.ofArguments packGrammar arguments
  match findings.value? .output, findings.inputs with
  | some output, _ :: _ =>
    let size := ((findings.value? .chunkSize).bind Findings.number?).getD defaultCopySize
    return .pack output
      { chunkSize := max size 1 * copyUnit, payloadCrc := (findings.value? .noCrc).isNone }
      findings.inputs
  | _, _ => throw .missingArgument

/-- Reads the arguments of a command with one input. -/
def parseSingle (grammar : Grammar) (command : Findings → String → Command)
    (arguments : List String) : Except UsageError Command := do
  let findings ← Findings.ofArguments grammar arguments
  match findings.inputs with
  | input :: _ => return command findings input
  | [] => throw .missingArgument

/-- The command with a name, as a reader of its arguments. -/
def named? (name : String) : Option (List String → Except UsageError Command) :=
  if name = "pack" ∨ name = "c" then some parsePack
  else if name = "unpack" ∨ name = "x" then
    some (parseSingle unpackGrammar fun findings input =>
      .unpack input ((findings.value? .outputDir).getD "."))
  else if name = "list" then
    some (parseSingle listGrammar fun findings input =>
      .list input (findings.value? .json).isSome)
  else if name = "records" then some (parseSingle recordsGrammar fun _ input => .records input)
  else none

/-- Whether a word names a command, that for help included. -/
def isName (word : String) : Bool := word = "help" || (named? word).isSome

/-- Reads what help is asked for. -/
def parseHelp : List String → UsageError
  | [] => .helpRequested
  | [word] => if isName word then .helpRequested else .unknownCommand
  | _ => .unknownCommand

/-- Reads a first argument that names no command. -/
def parseFlag (argument : String) : UsageError :=
  match argument.toList with
  | '-' :: '-' :: text =>
    let name := String.ofList (text.takeWhile (· ≠ '='))
    if name = "help" ∨ name = "version" then
      if text.contains '=' then .unexpectedValue
      else if name = "help" then .helpRequested
      else .versionRequested
    else .unknownArgument
  | '-' :: 'h' :: _ => .helpRequested
  | '-' :: 'V' :: _ => .versionRequested
  | '-' :: _ :: _ => .unknownArgument
  | _ => .unknownCommand

/-- Reads what follows two dashes in place of a command. -/
def parseEnded : List String → UsageError
  | [] => .nothingGiven
  | word :: _ => if isName word then .unknownArgument else .unknownCommand

/-- Reads a command line. -/
def parse : List String → Except UsageError Command
  | [] => .error .nothingGiven
  | word :: arguments =>
    if word = "--" then .error (parseEnded arguments)
    else if word = "help" then .error (parseHelp arguments)
    else match named? word with
      | some parseArguments => parseArguments arguments
      | none => .error (parseFlag word)

end Command

end RecordArchive.CommandLine
