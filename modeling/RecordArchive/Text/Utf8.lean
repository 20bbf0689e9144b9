/-! # Text as UTF-8

`bytesOf` writes a text, `textOf?` reads one back, and a byte string that is no text is refused with
the place where it stops being one. `scan` finds that place: it walks over well-formed sequences and
stops at the first lead byte whose sequence is broken by a later byte or by the end of the input.
`lossy` reads any byte string: it writes a replacement character for each sequence that is broken. -/

namespace RecordArchive.Text.Utf8

/-- The bytes of a text. -/
def bytesOf (text : String) : List UInt8 := text.toUTF8.data.toList

/-- Where a byte string stops being text. -/
structure Fault where
  /-- The offset of the first byte outside well-formed text. -/
  index : Nat
  /-- The bytes before the one that breaks the sequence, or `none` when the input ends inside it. -/
  length? : Option Nat
  deriving DecidableEq, Repr

/-- The wording of a place where text ends. -/
def Fault.message (fault : Fault) : String :=
  match fault.length? with
  | some length => s!"invalid utf-8 sequence of {length} bytes from index {fault.index}"
  | none => s!"incomplete utf-8 byte sequence from index {fault.index}"

/-- The ranges of the bytes that must follow a lead byte, or `none` if it leads nothing. -/
def following (lead : UInt8) : Option (List (UInt8 × UInt8)) :=
  if lead < 0x80 then some []
  else if lead < 0xC2 then none
  else if lead < 0xE0 then some [(0x80, 0xBF)]
  else if lead = 0xE0 then some [(0xA0, 0xBF), (0x80, 0xBF)]
  else if lead = 0xED then some [(0x80, 0x9F), (0x80, 0xBF)]
  else if lead < 0xF0 then some [(0x80, 0xBF), (0x80, 0xBF)]
  else if lead = 0xF0 then some [(0x90, 0xBF), (0x80, 0xBF), (0x80, 0xBF)]
  else if lead < 0xF4 then some [(0x80, 0xBF), (0x80, 0xBF), (0x80, 0xBF)]
  else if lead = 0xF4 then some [(0x80, 0x8F), (0x80, 0xBF), (0x80, 0xBF)]
  else none

/-- The fault of a byte string that starts at `index` inside a sequence: `start` is the offset of
its lead byte, `taken` the number of its bytes so far, `expected` the ranges still to come. -/
def scan (start taken : Nat) : (expected : List (UInt8 × UInt8)) → List UInt8 → Option Fault
  | [], [] => none
  | _ :: _, [] => some ⟨start, none⟩
  | [], lead :: rest =>
    match following lead with
    | some expected => scan (start + taken) 1 expected rest
    | none => some ⟨start + taken, some 1⟩
  | (low, high) :: expected, byte :: rest =>
    if low ≤ byte ∧ byte ≤ high then scan start (taken + 1) expected rest
    else some ⟨start, some taken⟩

/-- The first place where a byte string is not text, if there is one. -/
def fault? (bytes : List UInt8) : Option Fault := scan 0 0 [] bytes

/-- The text that a byte string spells, or the place where it stops being text. -/
def textOf? (bytes : List UInt8) : Except Fault String :=
  match String.fromUTF8? ⟨bytes.toArray⟩ with
  | some text => .ok text
  | none => .error ((fault? bytes).getD ⟨bytes.length, none⟩)

/-- The character that a byte string starts with, if it starts with one. -/
def firstChar? (bytes : List UInt8) : Option Char := ByteArray.utf8DecodeChar? ⟨bytes.toArray⟩ 0

/-- The number of bytes that go on with a sequence whose later bytes are expected in these ranges. -/
def continuing : List (UInt8 × UInt8) → List UInt8 → Nat
  | (low, high) :: expected, byte :: rest =>
    if low ≤ byte ∧ byte ≤ high then continuing expected rest + 1 else 0
  | _, _ => 0

/-- The character for a sequence that is broken. -/
def replacement : Char := '\uFFFD'

/-- The characters behind the first bytes of a byte string, where a character starts. A sequence that is
broken is replaced as far as it goes. -/
def lossyFrom : (skipped : Nat) → List UInt8 → List Char
  | _, [] => []
  | skipped + 1, _ :: rest => lossyFrom skipped rest
  | 0, lead :: rest =>
    match firstChar? (lead :: rest) with
    | some c => c :: lossyFrom (c.utf8Size - 1) rest
    | none => replacement :: lossyFrom (continuing ((following lead).getD []) rest) rest

/-- The text that a byte string spells, with replacements where it spells none. -/
def lossy (bytes : List UInt8) : String := String.ofList (lossyFrom 0 bytes)

end RecordArchive.Text.Utf8
