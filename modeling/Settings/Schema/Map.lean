import Settings.Json.Reader
import Settings.Schema.Scalar

/-!
# Maps by a schema

The entries of a map are read in the order of the stored keys, each key before
its value, and are then kept in the order of the keys that were read. A numeric
key is a number literal of stored text and nothing else.
-/

namespace Settings.Schema

/-- A numeric key: digits that are read like a number of stored text. -/
def readIntegerKey (kind : IntegerKind) (key : String) : Except Mismatch Datum :=
  let text := key.toList
  match text with
  | [] => .error .keyNotNumber
  | first :: _ =>
    if first = '-' ∨ first.isDigit then
      match Json.number Json.stored text with
      | .error failure => .error (.keyRefused (failure.refusal text))
      | .ok (value, rest) =>
        match readInteger kind value with
        | .error m => .error (.key m (Text.Position.before text rest))
        | .ok d => if rest = [] then .ok d else .error .keyNotNumber
    else .error .keyNotNumber

/-- A key of a map. -/
def readKey : KeySchema → String → Except Mismatch Datum
  | .text, key => .ok (.text key)
  | .bool, key =>
    if key = "true" then .ok (.bool true)
    else if key = "false" then .ok (.bool false)
    else .error (.kind (.string key) "a boolean")
  | .integer kind, key => readIntegerKey kind key

/-- The entries of a map; a key is read before its value. -/
def readEntries {α : Type} (key : KeySchema) (content : Reading α) :
    List (String × α) → Except Mismatch (List (Datum × Datum))
  | [] => .ok []
  | (name, value) :: rest => do
    let k ← readKey key name
    let d ← content value
    let entries ← readEntries key content rest
    return (k, d) :: entries

/-- The place of a key among the keys of a typed map: false before true,
integers by size, texts as they stand. -/
def keyBefore : Datum → Datum → Bool
  | .integer a, .integer b => decide (a < b)
  | .bool a, .bool b => !a && b
  | .text a, .text b => decide (a < b)
  | _, _ => false

/-- Put an entry into a typed map. Of two entries with one key the later
counts. -/
def insertEntry (entry : Datum × Datum) : List (Datum × Datum) → List (Datum × Datum)
  | [] => [entry]
  | other :: rest =>
    if keyBefore entry.1 other.1 then entry :: other :: rest
    else if keyBefore other.1 entry.1 then other :: insertEntry entry rest
    else entry :: rest

/-- A map from its members. -/
def readMapMembers {α : Type} (key : KeySchema) (content : Reading α)
    (members : List (String × α)) : Except Mismatch Datum := do
  let entries ← readEntries key content members
  return .map (entries.foldl (fun sorted entry => insertEntry entry sorted) [])

/-- A map from an object. -/
def readMap (key : KeySchema) (content : Reading Json.Value) : Reading Json.Value
  | .object members => readMapMembers key content members
  | value => unfit value "a map"

end Settings.Schema
