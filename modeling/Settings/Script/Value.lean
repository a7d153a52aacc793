import Settings.Binary.Basic
import Settings.Decimal.Basic
import Settings.Text.Units

/-!
# Values of a script

A script in the browser hands over values of its own: texts of 16-bit units,
numbers that are doubles with NaN and the infinities, and things that have no
stored form. An object enumerates its properties in a fixed order: keys that
are array indices first, ascending, then the others in the order in which they
were defined.
-/

namespace Settings.Script

open Text (Units)

/-- A value of a script. -/
inductive Value where
  /-- No value. -/
  | undefined
  /-- The null value. -/
  | null
  /-- A truth value. -/
  | bool (b : Bool)
  /-- A number. -/
  | number (x : Binary Binary.double)
  /-- An integer of any size. -/
  | bigint (n : Int)
  /-- A text. -/
  | string (s : Units)
  /-- A symbol with its description, if it has one. -/
  | symbol (description : Option String)
  /-- A function with its name. -/
  | function (name : String)
  /-- Values in order. -/
  | array (items : List Value)
  /-- Properties in the order of enumeration. A function among them is not called
  when the object is written, whatever its key: an object whose `toJSON` is to be
  called is a `standIn` or `raising`, by what the call gives. -/
  | object (properties : List (Units × Value))
  /-- An error object. -/
  | error (name : String) (message : Units)
  /-- An object that offers another value to be written in its place. -/
  | standIn (value : Value)
  /-- An object that throws when it is written. -/
  | raising (thrown : Value)
deriving Inhabited

/-- The greatest array index. -/
def greatestIndex : Nat := 4294967294

/-- The array index that a key spells in its one canonical way. -/
def arrayIndex? (key : Units) : Option Nat :=
  let digits := Text.decodeUnits key
  if digits.all Char.isDigit ∧ digits = Decimal.digitsOf (Decimal.valueOf digits) ∧
      Decimal.valueOf digits ≤ greatestIndex then
    some (Decimal.valueOf digits)
  else none

/-- Whether a key is enumerated before another one that was defined earlier. -/
def comesBefore (key other : Units) : Bool :=
  match arrayIndex? key, arrayIndex? other with
  | some i, some j => decide (i < j)
  | some _, none => true
  | none, _ => false

/-- Put a new property at its place in the order of enumeration. -/
def place (key : Units) (value : Value) : List (Units × Value) → List (Units × Value)
  | [] => [(key, value)]
  | (k, v) :: rest =>
    if comesBefore key k then (key, value) :: (k, v) :: rest
    else (k, v) :: place key value rest

/-- Give an existing property a new value, where it is. -/
def overwrite (key : Units) (value : Value) : List (Units × Value) → List (Units × Value)
  | [] => []
  | (k, v) :: rest =>
    if k = key then (k, value) :: rest else (k, v) :: overwrite key value rest

/-- Define a property. -/
def define (key : Units) (value : Value) (properties : List (Units × Value)) :
    List (Units × Value) :=
  if properties.any fun property => property.1 = key then overwrite key value properties
  else place key value properties

/-- The object whose properties are defined in the given order. -/
def Value.ofEntries (entries : List (Units × Value)) : Value :=
  .object (entries.foldl (fun properties entry => define entry.1 entry.2 properties) [])

/-- Strict equality of two values that are not one object: scalars are compared
by value, and containers, functions, errors and symbols are never equal. -/
def Value.same : Value → Value → Bool
  | .undefined, .undefined => true
  | .null, .null => true
  | .bool a, .bool b => a == b
  | .number x, .number y => x.same y
  | .bigint m, .bigint n => m == n
  | .string s, .string t => s == t
  | _, _ => false

/-- Strict equality of a value with itself: NaN fails it, and a symbol is not
recognised as the one that was handed over. -/
def Value.sameAsItself : Value → Bool
  | .number x => x.same x
  | .symbol _ => false
  | _ => true

end Settings.Script
