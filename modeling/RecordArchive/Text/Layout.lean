/-! # Fixed-width text

Hexadecimal numbers of a given width and columns padded with blanks. Widths count characters. -/

namespace RecordArchive.Text

/-- The lower-case hexadecimal digits of a number, at least `width` of them. -/
def hex (width value : Nat) : String :=
  let digits := Nat.toDigits 16 value
  String.ofList (List.replicate (width - digits.length) '0' ++ digits)

/-- A hexadecimal number behind the sign of its base. -/
def hexNumber (width value : Nat) : String := "0x" ++ hex width value

/-- The bytes of a string, two digits each. -/
def hexBytes (bytes : List UInt8) : String :=
  String.join (bytes.map fun byte => hex 2 byte.toNat)

/-- A text at the left end of a column. -/
def alignLeft (width : Nat) (text : String) : String :=
  text ++ String.ofList (List.replicate (width - text.length) ' ')

/-- A text at the right end of a column. -/
def alignRight (width : Nat) (text : String) : String :=
  String.ofList (List.replicate (width - text.length) ' ') ++ text

end RecordArchive.Text
