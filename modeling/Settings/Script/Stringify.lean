import Settings.Binary.Text
import Settings.Json.Writer
import Settings.Script.Value

/-!
# The stored text of a script value

A script value is turned into text before it is stored. Some values have no
text: they are left out of an object, become null in an array and leave nothing
at the top. Numbers that are not finite become null. An object may offer
another value in its place, once: what it offers is written as it is. Writing
may throw, and then what was thrown is the result.
-/

namespace Settings.Script

open Text (Units)

/-- A unit as an escape. -/
def unitEscape (unit : UInt16) : List Char :=
  '\\' :: 'u' :: Text.hexQuad unit.toNat

/-- Units inside quotes: pairs are joined to one character, and a surrogate
without its partner is escaped. -/
def quoteBody : Units → List Char
  | [] => []
  | [unit] =>
    if Text.opensPair unit || Text.closesPair unit then unitEscape unit
    else Json.escapeChar (Char.ofNat unit.toNat)
  | first :: second :: rest =>
    if Text.opensPair first && Text.closesPair second then
      Json.escapeChar (Text.pairValue first.toNat second.toNat) ++ quoteBody rest
    else if Text.opensPair first || Text.closesPair first then
      unitEscape first ++ quoteBody (second :: rest)
    else Json.escapeChar (Char.ofNat first.toNat) ++ quoteBody (second :: rest)

/-- A text of units in quotes. -/
def quote (text : Units) : List Char :=
  '"' :: (quoteBody text ++ ['"'])

/-- What is thrown for an integer of any size, which has no text. -/
def bigintError : Value :=
  .error "TypeError" (Text.unitsOf "Do not know how to serialize a BigInt")

/-- The text of a number: null unless it is finite. -/
def numberText : Binary Binary.double → List Char
  | .finite x => Binary.scriptText (.finite x)
  | _ => ['n', 'u', 'l', 'l']

/-- Texts in a row, separated by commas. -/
def joined (parts : List (List Char)) : List Char :=
  (parts.intersperse [',']).flatten

mutual

/-- The text of a value, if it has one. `offered` says that the value was
offered by another one in its place, so that it cannot offer a third. -/
def textOf (offered : Bool) : Value → Except Value (Option (List Char))
  | .undefined => .ok none
  | .null => .ok (some ['n', 'u', 'l', 'l'])
  | .bool true => .ok (some ['t', 'r', 'u', 'e'])
  | .bool false => .ok (some ['f', 'a', 'l', 's', 'e'])
  | .number x => .ok (some (numberText x))
  | .bigint _ => .error bigintError
  | .string s => .ok (some (quote s))
  | .symbol _ => .ok none
  | .function _ => .ok none
  | .array items => do
    let parts ← textsOfItems items
    return some ('[' :: (joined parts ++ [']']))
  | .object properties => do
    let parts ← textsOfProperties properties
    return some ('{' :: (joined parts ++ ['}']))
  | .error _ _ => .ok (some ['{', '}'])
  | .standIn value => if offered then .ok (some ['{', '}']) else textOf true value
  | .raising thrown => if offered then .ok (some ['{', '}']) else .error thrown

/-- The texts of items; one without a text is null. -/
def textsOfItems : List Value → Except Value (List (List Char))
  | [] => .ok []
  | item :: rest => do
    let part ← textOf false item
    let parts ← textsOfItems rest
    return part.getD ['n', 'u', 'l', 'l'] :: parts

/-- The texts of properties; one without a text is left out. -/
def textsOfProperties : List (Units × Value) → Except Value (List (List Char))
  | [] => .ok []
  | (key, value) :: rest => do
    let part ← textOf false value
    let parts ← textsOfProperties rest
    match part with
    | some text => return (quote key ++ ':' :: text) :: parts
    | none => return parts

end

/-- The text of a value, nothing if it has none, or what writing it throws. -/
def stringify (value : Value) : Except Value (Option (List Char)) :=
  textOf false value

end Settings.Script
