import Settings.Binary.Rounding
import Settings.Schema.Basic
import Settings.Schema.Mismatch

/-!
# Scalars by a schema

Reading converts nothing: an integer is no text, and a float is no integer even
if its value is integral. Only numbers of 32 and 64 bits take every stored
number and round it. An option is null or what its content reads.
-/

namespace Settings.Schema

/-- A reading of something as a typed value. -/
abbrev Reading (α : Type) := α → Except Mismatch Datum

/-- The mismatch of a value that is of another kind than wanted. -/
def unfit (value : Json.Value) (wanted : String) : Except Mismatch Datum :=
  .error (.kind (Found.ofValue value) wanted)

/-- A truth value. -/
def readBool : Reading Json.Value
  | .bool b => .ok (.bool b)
  | value => unfit value "a boolean"

/-- An integer of a kind. -/
def readInteger (kind : IntegerKind) : Reading Json.Value
  | .number (.integer n _) =>
    if kind.least ≤ n ∧ n < kind.limit then .ok (.integer n)
    else .error (.value (.integer n) kind.name)
  | value => unfit value kind.name

/-- A number of 32 bits: the nearest one. -/
def readSingle : Reading Json.Value
  | .number (.integer n _) => .ok (.single (Binary.ofInt Binary.single n))
  | .number (.float x) => .ok (.single (x.convert Binary.single))
  | value => unfit value "f32"

/-- A number of 64 bits: the nearest one. -/
def readDouble : Reading Json.Value
  | .number (.integer n _) => .ok (.double (Binary.ofInt Binary.double n))
  | .number (.float x) => .ok (.double (.finite x))
  | value => unfit value "f64"

/-- One character. -/
def readChar : Reading Json.Value
  | .string s =>
    match s.toList with
    | [c] => .ok (.char c)
    | _ => .error (.value (.string s) "a character")
  | value => unfit value "a character"

/-- A text. -/
def readText : Reading Json.Value
  | .string s => .ok (.text s)
  | value => unfit value "a string"

/-- The only value of its type is stored as null. -/
def readUnit : Reading Json.Value
  | .null => .ok .unit
  | value => unfit value "unit"

/-- Null is a missing value, any other value is read by its schema. -/
def readOption (content : Reading Json.Value) : Reading Json.Value
  | .null => .ok .absent
  | value => (content value).map .present

end Settings.Schema
