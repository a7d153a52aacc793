import Settings.Json.Value
import Settings.Text.Position

/-!
# Typed values

A host program hands over values of its own types: numbers of several widths,
optional values, sequences, maps with keys that need not be texts, records and
tagged alternatives. They are told apart here exactly as far as their stored
form or their use as a key can differ. A value may also refuse to be stored.
-/

namespace Settings

/-- A value of a host program. -/
inductive Datum where
  /-- A truth value. -/
  | bool (b : Bool)
  /-- An integer of any width. -/
  | integer (n : Int)
  /-- A number of 32 bits. -/
  | single (x : Binary Binary.single)
  /-- A number of 64 bits. -/
  | double (x : Binary Binary.double)
  /-- One character. -/
  | char (c : Char)
  /-- A text. -/
  | text (s : String)
  /-- Raw bytes. -/
  | bytes (bs : List UInt8)
  /-- An optional value that is not there. -/
  | absent
  /-- An optional value that is there. -/
  | present (d : Datum)
  /-- The value of a type that has only one. -/
  | unit
  /-- An alternative without content. -/
  | named (name : String)
  /-- A value in a type of its own. -/
  | wrapped (d : Datum)
  /-- An alternative with content. -/
  | tagged (name : String) (d : Datum)
  /-- Values in order. -/
  | sequence (ds : List Datum)
  /-- Values under values, in order. -/
  | map (entries : List (Datum × Datum))
  /-- Values under the names of fields, in order of declaration. -/
  | record (fields : List (String × Datum))
  /-- A value of stored text. -/
  | stored (v : Json.Value)
  /-- A value that refuses to be stored, with its reason. -/
  | refusing (reason : String)
deriving Inhabited

/-- Why a value has no stored form. -/
inductive Datum.Refusal where
  /-- An integer that is not in the stored range. -/
  | outOfRange
  /-- A key that is no text and does not become one. -/
  | keyNotString
  /-- A key that is a number but not a finite one. -/
  | keyNotFinite
  /-- The value itself refuses. -/
  | refused (reason : String)
deriving DecidableEq, Repr

/-- The message of a refusal. -/
def Datum.Refusal.message : Datum.Refusal → String
  | .outOfRange => "number out of range"
  | .keyNotString => "key must be a string"
  | .keyNotFinite => "float key must be finite (got NaN or +/-inf)"
  | .refused reason => Text.shown reason

end Settings
