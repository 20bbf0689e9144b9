import RecordArchive.Text.Utf8

/-! # Paths

A path is text whose segments are separated by slashes. `Path.components` reads it: empty segments
do not count, a leading slash is the root, a dot counts only in front of a relative path, and two
dots are the parent. `Path.entryName?` and `Path.safeNames?` are the two ways between paths and the
names of entries: the first names what a path leads to, the second gives the way that a name
describes below a directory, and refuses names that could lead elsewhere. `Path.join` and
`Path.trimEnd` make the text of another path.

A file system knows paths as bytes, which need not be text. `Path.rawEntryName?` names what such a path
leads to, and `Path.childName` what is below it. -/

namespace RecordArchive.Path

/-- Puts a character in front of segments; a slash starts a new one. -/
def addChar (c : Char) : List (List Char) → List (List Char)
  | [] => [[c]]
  | segment :: others => if c = '/' then [] :: segment :: others else (c :: segment) :: others

/-- The segments of a text between slashes, empty ones included. -/
def segments (text : List Char) : List (List Char) := text.foldr addChar [[]]

/-- One step of a path. -/
inductive Component
  /-- The root of the file system. -/
  | root
  /-- The directory itself. -/
  | current
  /-- The directory above. -/
  | parent
  /-- An entry of the directory. -/
  | entry (name : String)
  deriving DecidableEq, Repr

/-- The step that a segment behind the first one stands for, if any. -/
def step? (segment : List Char) : Option Component :=
  if segment = [] ∨ segment = ['.'] then none
  else if segment = ['.', '.'] then some .parent
  else some (.entry (String.ofList segment))

/-- The steps of a path. -/
def components (path : String) : List Component :=
  match segments path.toList with
  | [] => []
  | first :: others =>
    (if path.toList.head? = some '/' then [Component.root]
     else if first = ['.'] then [Component.current]
     else (step? first).toList) ++ others.filterMap step?

/-- The name in a step to an entry. -/
def Component.name? : Component → Option String
  | entry name => some name
  | _ => none

/-- The names along a path. -/
def names (path : String) : List String := (components path).filterMap Component.name?

/-- The text of a way through entries. -/
def ofNames (names : List String) : String := "/".intercalate names

/-- The name of the entry for a path: the names along the path, wherever it leads. -/
def entryName? (path : String) : Option String :=
  if names path = [] then none else some (ofNames (names path))

/-- Whether a step stays below the directory it is taken from. -/
def Component.isSafe : Component → Bool
  | entry _ | current => true
  | root | parent => false

/-- The way below a directory that the name of an entry describes, if it can lead nowhere else. -/
def safeNames? (name : String) : Option (List String) :=
  if (components name).all Component.isSafe && names name ≠ [] then some (names name) else none

/-- A path behind another one. -/
def join (base rest : String) : String :=
  if base = "" ∨ base.toList.getLast? = some '/' then base ++ rest else base ++ "/" ++ rest

/-- The segments up to the last one that is a step. -/
def trimSegments : List (List Char) → List (List Char)
  | [] => []
  | segment :: others =>
    match trimSegments others, step? segment with
    | [], none => []
    | kept, _ => segment :: kept

/-- A path without the slashes and dots at its end that lead no further. The root keeps its
slash. -/
def trimEnd (path : String) : String :=
  match segments path.toList with
  | [] => ""
  | first :: others =>
    let kept := trimSegments others
    if first = [] ∧ others ≠ [] ∧ kept = [] then "/"
    else "/".intercalate ((first :: kept).map String.ofList)

/-! ### Paths that need not be text -/

/-- The names along a path of bytes: what stands between its slashes, but for nothing and for dots. -/
def rawNames (path : List UInt8) : List (List UInt8) :=
  (List.splitOn 0x2F path).filter fun name => name ≠ [] ∧ name ≠ [0x2E] ∧ name ≠ [0x2E, 0x2E]

/-- The name of the entry for a path of bytes. -/
def rawEntryName? (path : List UInt8) : Option String :=
  if rawNames path = [] then none
  else some (ofNames ((rawNames path).map Text.Utf8.lossy))

/-- The name of the entry for what a directory holds, made of that for the directory. -/
def childName (name : String) (child : List UInt8) : String := name ++ "/" ++ Text.Utf8.lossy child

end RecordArchive.Path
