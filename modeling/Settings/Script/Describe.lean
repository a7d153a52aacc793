import Settings.Script.Stringify

/-!
# What was thrown, in words

A storage of the browser fails by throwing a value of the script. Its
description is the message of an error, a text as it is, and otherwise a text
for debugging. Surrogates without a partner are replaced.
-/

namespace Settings.Script

open Text (Units)

/-- Anything else that is an object: its stored text, if writing it does not
throw. -/
def debugObject (value : Value) : List Char :=
  match stringify value with
  | .ok (some text) => "Object(".toList ++ text ++ [')']
  | .ok none => "Object(undefined)".toList
  | .error _ => "Object".toList

mutual

/-- A value as a text for debugging. -/
def debugText : Value → List Char
  | .undefined => "undefined".toList
  | .null => "null".toList
  | .bool b => (toString b).toList
  | .number x => Binary.scriptText x
  | .bigint _ => "BigInt".toList
  | .string s => '"' :: (Text.decodeUnits s ++ ['"'])
  | .symbol none => "Symbol".toList
  | .symbol (some description) => "Symbol(".toList ++ description.toList ++ [')']
  | .function name =>
    if name.isEmpty then "Function".toList else "Function(".toList ++ name.toList ++ [')']
  | .array items =>
    '[' :: (((debugItems items).intersperse [',', ' ']).flatten ++ [']'])
  | .object properties => debugObject (.object properties)
  | .error name message => debugObject (.error name message)
  | .standIn value => debugObject (.standIn value)
  | .raising thrown => debugObject (.raising thrown)

/-- Items as texts for debugging. -/
def debugItems : List Value → List (List Char)
  | [] => []
  | item :: rest => debugText item :: debugItems rest

end

/-- A thrown value in words. -/
def Value.describe : Value → String
  | .error _ message => Text.hostText message
  | .string s => Text.hostText s
  | value => String.ofList ("JsValue(".toList ++ debugText value ++ [')'])

end Settings.Script
