import Settings.Binary.Text
import Settings.Json.Failure
import Settings.Json.Value
import Settings.Text.Quoted

/-!
# Why a value does not fit a schema

A mismatch names what was found and what was wanted. What was found is shown by
kind and, if it is a scalar, by its value.
-/

namespace Settings

/-- What stands where another thing was wanted. -/
inductive Found where
  /-- The null value. -/
  | null
  /-- A truth value. -/
  | bool (b : Bool)
  /-- An integer. -/
  | integer (n : Int)
  /-- A float. -/
  | float (x : Binary.Finite Binary.double)
  /-- A text. -/
  | string (s : String)
  /-- An array. -/
  | sequence
  /-- An object. -/
  | map
  /-- A bare name where an alternative has content. -/
  | bareName

/-- What a stored value is when it was not wanted. -/
def Found.ofValue : Json.Value → Found
  | .null => .null
  | .bool b => .bool b
  | .number (.integer n _) => .integer n
  | .number (.float x) => .float x
  | .string s => .string s
  | .array _ => .sequence
  | .object _ => .map

/-- What was found, as messages show it. -/
def Found.text : Found → String
  | .null => "null"
  | .bool b => "boolean `" ++ toString b ++ "`"
  | .integer n => "integer `" ++ String.ofList (Decimal.integerText n) ++ "`"
  | .float x => "floating point `" ++ String.ofList x.storedText ++ "`"
  | .string s => "string " ++ Text.quoted s
  | .sequence => "sequence"
  | .map => "map"
  | .bareName => "unit variant"

/-- Why a value does not fit. -/
inductive Mismatch where
  /-- Another kind of value was wanted. -/
  | kind (found : Found) (wanted : String)
  /-- A value of the right kind that is not one of those wanted. -/
  | value (found : Found) (wanted : String)
  /-- So many values are too few or too many. -/
  | length (count : Nat) (wanted : String)
  /-- A closed record has no such field. -/
  | unknownField (name : String) (known : List String)
  /-- A field that has to be there is missing. -/
  | missingField (name : String)
  /-- A field is there twice. -/
  | repeatedField (name : String)
  /-- There is no such alternative. -/
  | unknownAlternative (name : String) (known : List String)
  /-- A key that has to be a number in digits. -/
  | keyNotNumber
  /-- A key that starts like a number and is refused. -/
  | keyRefused (refusal : Json.Refusal)
  /-- A scalar of a text that denotes no value. -/
  | refused (cause : Json.Cause)
  /-- A numeric key that does not fit, found at a place in the key. -/
  | key (inner : Mismatch) (place : Text.Position)

/-- Names to choose from, as messages list them. -/
def nameChoice : List String → String
  | [] => "there are no fields"
  | [a] => "expected `" ++ a ++ "`"
  | [a, b] => "expected `" ++ a ++ "` or `" ++ b ++ "`"
  | names => "expected one of " ++ ", ".intercalate (names.map fun name => "`" ++ name ++ "`")

/-- The message of a mismatch. -/
def Mismatch.message : Mismatch → String
  | .kind found wanted => "invalid type: " ++ found.text ++ ", expected " ++ wanted
  | .value found wanted => "invalid value: " ++ found.text ++ ", expected " ++ wanted
  | .length count wanted => "invalid length " ++ toString count ++ ", expected " ++ wanted
  | .unknownField name known => "unknown field `" ++ name ++ "`, " ++ nameChoice known
  | .missingField name => "missing field `" ++ name ++ "`"
  | .repeatedField name => "duplicate field `" ++ name ++ "`"
  | .refused cause => cause.message
  | .unknownAlternative name known => "unknown variant `" ++ name ++ "`, " ++ nameChoice known
  | .keyNotNumber => "invalid value: expected key to be a number in quotes"
  | .keyRefused refusal => refusal.message
  | .key inner place => inner.message ++ place.suffix

end Settings
