import EventBridge.Text.Digits
import EventBridge.Text.Printable

/-! # Texts in messages

A message quotes a text between double quotes on one line: quote and backslash stand behind a
backslash, `\t`, `\r`, `\n` and `\0` have their letters, and any other character that would not
show is given by its code point, as in `\u` with the hexadecimal number in braces.
-/

namespace EventBridge.Text

/-- One character of a quoted text. -/
def quotedChar (c : Char) : List Char :=
  if c = '\x00' then ['\\', '0']
  else if c = '\t' then ['\\', 't']
  else if c = '\r' then ['\\', 'r']
  else if c = '\n' then ['\\', 'n']
  else if c = '\x22' ∨ c = '\\' then ['\\', c]
  else if isShown c then [c]
  else '\\' :: 'u' :: '\x7b' :: hexadecimal c.toNat ++ ['\x7d']

/-- A text between double quotes. -/
def quoted (text : String) : String :=
  String.ofList ('\x22' :: text.toList.flatMap quotedChar ++ ['\x22'])

end EventBridge.Text
