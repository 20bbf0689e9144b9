import RecordArchive.Text.Hidden
import RecordArchive.Text.Layout

/-! # Quoted text

Text between double quotes, on one line. Quotes and backslashes are escaped by a backslash, line
ends, tabs and zero characters by their letters, and other characters that show nothing by their
number. -/

namespace RecordArchive.Text

/-- A character inside quotes. -/
def quotedChar (c : Char) : String :=
  if c = '"' then "\\\""
  else if c = '\\' then "\\\\"
  else if c = '\n' then "\\n"
  else if c = '\r' then "\\r"
  else if c = '\t' then "\\t"
  else if c = '\x00' then "\\0"
  else if isHidden c then "\\u\x7b" ++ hex 1 c.toNat ++ "\x7d"
  else c.toString

/-- A text between quotes. -/
def quoted (text : String) : String := "\"" ++ String.join (text.toList.map quotedChar) ++ "\""

end RecordArchive.Text
