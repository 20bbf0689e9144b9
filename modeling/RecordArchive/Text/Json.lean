/-! # JSON text

Values and their two written forms: on one line without blanks, or one item a line with two blanks
of indentation a level. Empty arrays and objects take no line of their own in either form. -/

namespace RecordArchive.Text

/-- A JSON value whose numbers are natural. -/
inductive JsonValue
  | null
  | bool (value : Bool)
  | number (value : Nat)
  | string (text : String)
  | array (items : List JsonValue)
  | object (fields : List (String × JsonValue))

namespace JsonValue

/-- The two written forms. -/
inductive Style
  /-- Everything on one line. -/
  | compact
  /-- One item a line. -/
  | pretty
  deriving DecidableEq, Repr

/-- A character inside a quoted string: quote, backslash and control characters are escaped. -/
def escapeChar (c : Char) : String :=
  if c = '"' then "\\\""
  else if c = '\\' then "\\\\"
  else if c = '\n' then "\\n"
  else if c = '\r' then "\\r"
  else if c = '\t' then "\\t"
  else if c = '\x08' then "\\b"
  else if c = '\x0c' then "\\f"
  else if c.toNat < 0x20 then
    let digits := Nat.toDigits 16 c.toNat
    "\\u" ++ String.ofList (List.replicate (4 - digits.length) '0' ++ digits)
  else c.toString

/-- A quoted string. -/
def quote (text : String) : String :=
  "\"" ++ String.join (text.toList.map escapeChar) ++ "\""

/-- What stands before an item at a depth. -/
def Style.lineBreak (style : Style) (depth : Nat) : String :=
  match style with
  | compact => ""
  | pretty => "\n" ++ String.ofList (List.replicate (2 * depth) ' ')

/-- What stands between a field name and its value. -/
def Style.colon : Style → String
  | compact => ":"
  | pretty => ": "

mutual

/-- The text of a value at a depth. -/
def render (style : Style) (depth : Nat) : JsonValue → String
  | null => "null"
  | bool value => if value then "true" else "false"
  | number value => toString value
  | string text => quote text
  | array [] => "[]"
  | array (item :: items) =>
    "[" ++ style.lineBreak (depth + 1) ++ render style (depth + 1) item
      ++ renderItems style (depth + 1) items ++ style.lineBreak depth ++ "]"
  | object [] => "\x7b\x7d"
  | object (field :: fields) =>
    "\x7b" ++ style.lineBreak (depth + 1) ++ renderField style (depth + 1) field
      ++ renderFields style (depth + 1) fields ++ style.lineBreak depth ++ "\x7d"

/-- The text of the items behind the first one. -/
def renderItems (style : Style) (depth : Nat) : List JsonValue → String
  | [] => ""
  | item :: items =>
    "," ++ style.lineBreak depth ++ render style depth item ++ renderItems style depth items

/-- The text of one field. -/
def renderField (style : Style) (depth : Nat) : String × JsonValue → String
  | (name, value) => quote name ++ style.colon ++ render style depth value

/-- The text of the fields behind the first one. -/
def renderFields (style : Style) (depth : Nat) : List (String × JsonValue) → String
  | [] => ""
  | field :: fields =>
    "," ++ style.lineBreak depth ++ renderField style depth field
      ++ renderFields style depth fields

end

/-- The text of a value on one line. -/
def compactText (value : JsonValue) : String := value.render .compact 0

/-- The text of a value with one item a line. -/
def prettyText (value : JsonValue) : String := value.render .pretty 0

/-- The number in an optional field, or `null`. -/
def ofOption? (value? : Option Nat) : JsonValue :=
  match value? with
  | some value => number value
  | none => null

end JsonValue

end RecordArchive.Text
