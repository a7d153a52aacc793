import Settings.Text.Hidden

/-!
# Text quoted for a message

A message shows a text in double quotes. The quote, the backslash and four
control characters have short escapes; every other character that is not shown
as it is becomes its number in hexadecimal digits between braces.
-/

namespace Settings.Text

/-- One character of a text quoted for a message. -/
def quotedChar (c : Char) : List Char :=
  if c = '\x00' then ['\\', '0']
  else if c = '\t' then ['\\', 't']
  else if c = '\r' then ['\\', 'r']
  else if c = '\n' then ['\\', 'n']
  else if c = '"' then ['\\', '"']
  else if c = '\\' then ['\\', '\\']
  else if isHidden c then ['\\', 'u', '{'] ++ Nat.toDigits 16 c.toNat ++ ['}']
  else [c]

/-- A text in double quotes, as messages show it. -/
def quoted (text : String) : String :=
  String.ofList ('"' :: (text.toList.flatMap quotedChar ++ ['"']))

end Settings.Text
