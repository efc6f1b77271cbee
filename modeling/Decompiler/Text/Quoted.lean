/- # Decompiler.Text.Quoted — text between double quotes, one line for any content

NUL, tab, carriage return, line feed, the double quote and the backslash have short
escapes. Every other unprintable character is written by its code point in braces; all
else stands for itself, the single quote included.
-/
import Decompiler.Text.Hex
import Decompiler.Text.Unprintable

namespace Decompiler.Text

set_option autoImplicit false

/-- What stands for a character between the quotes. -/
def quotedChar (c : Char) : String :=
  if c = '\x00' then "\\0"
  else if c = '\t' then "\\t"
  else if c = '\r' then "\\r"
  else if c = '\n' then "\\n"
  else if c = '"' then "\\\""
  else if c = '\\' then "\\\\"
  else if isUnprintable c then "\\u\x7b" ++ hex c.toNat ++ "\x7d"
  else c.toString

def quoted (text : String) : String :=
  "\"" ++ String.join (text.toList.map quotedChar) ++ "\""

end Decompiler.Text
