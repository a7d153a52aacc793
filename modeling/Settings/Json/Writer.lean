import Settings.Binary.Text
import Settings.Json.Value
import Settings.Text.Hex

/-!
# Writing stored text

Stored text has no blanks outside strings. A string escapes the quote, the
backslash and the characters below U+0020; every other character stands for
itself. Members are written in the order in which they are kept.
-/

namespace Settings.Json

/-- One character of a string, as stored text writes it. -/
def escapeChar (c : Char) : List Char :=
  if c = '"' then ['\\', '"']
  else if c = '\\' then ['\\', '\\']
  else if c = '\x08' then ['\\', 'b']
  else if c = '\t' then ['\\', 't']
  else if c = '\n' then ['\\', 'n']
  else if c = '\x0c' then ['\\', 'f']
  else if c = '\r' then ['\\', 'r']
  else if c.toNat < 32 then '\\' :: 'u' :: Text.hexQuad c.toNat
  else [c]

/-- A string in quotes. -/
def quote (text : List Char) : List Char :=
  '"' :: (text.flatMap escapeChar ++ ['"'])

/-- An integer is its digits; a float has a point or an exponent. -/
def Number.text : Number → List Char
  | .integer n _ => Decimal.integerText n
  | .float x => x.storedText

mutual

/-- The text of a value. -/
def Value.text : Value → List Char
  | .null => ['n', 'u', 'l', 'l']
  | .bool true => ['t', 'r', 'u', 'e']
  | .bool false => ['f', 'a', 'l', 's', 'e']
  | .number n => n.text
  | .string s => quote s.toList
  | .array [] => ['[', ']']
  | .array (item :: rest) => '[' :: (item.text ++ textOfItems rest)
  | .object [] => ['{', '}']
  | .object ((key, value) :: rest) =>
    '{' :: (quote key.toList ++ ':' :: (value.text ++ textOfMembers rest))

/-- The items after the first one, up to the closing bracket. -/
def textOfItems : List Value → List Char
  | [] => [']']
  | item :: rest => ',' :: (item.text ++ textOfItems rest)

/-- The members after the first one, up to the closing brace. -/
def textOfMembers : List (String × Value) → List Char
  | [] => ['}']
  | (key, value) :: rest =>
    ',' :: (quote key.toList ++ ':' :: (value.text ++ textOfMembers rest))

end

/-- The stored text of a value. -/
def Value.encode (value : Value) : String :=
  String.ofList value.text

/-- The stored text of a document. -/
def encode (document : Document) : String :=
  (Value.object document).encode

end Settings.Json
