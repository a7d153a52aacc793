import Settings.Schema.Scalar

/-!
# Arrays by a schema

Items are read in order and the first that does not fit decides. How many there
are is looked at only after those that are needed were read.
-/

namespace Settings.Schema

variable {α : Type}

/-- Items of one schema. -/
def readItems (item : Reading α) : List α → Except Mismatch (List Datum)
  | [] => .ok []
  | value :: rest => do
    let d ← item value
    let ds ← readItems item rest
    return d :: ds

/-- A list of any length. -/
def readList (item : Reading Json.Value) : Reading Json.Value
  | .array values => do
    let ds ← readItems item values
    return .sequence ds
  | value => unfit value "a sequence"

/-- As many values as there are readings; how many of them there were, if they
were too few. -/
def readParts : Nat → List (Reading α) → List α → Except Mismatch (Nat ⊕ List Datum)
  | _, [], _ => .ok (.inr [])
  | count, _ :: _, [] => .ok (.inl count)
  | count, part :: parts, value :: rest => do
    let d ← part value
    match ← readParts (count + 1) parts rest with
    | .inl short => return .inl short
    | .inr ds => return .inr (d :: ds)

/-- Exactly as many values as there are readings. -/
def readTuple (parts : List (Reading α)) (wanted : String) (values : List α) :
    Except Mismatch Datum := do
  match ← readParts 0 parts values with
  | .inl count => .error (.length count wanted)
  | .inr ds =>
    if values.length ≤ parts.length then return .sequence ds
    else .error (.length values.length "fewer elements in array")

/-- The name of a tuple by its size. -/
def tupleName (size : Nat) : String :=
  "a tuple of size " ++ toString size

/-- A tuple from an array. -/
def readTupleValue (parts : List (Reading Json.Value)) (wanted : String) : Reading Json.Value
  | .array values => readTuple parts wanted values
  | value => unfit value wanted

end Settings.Schema
