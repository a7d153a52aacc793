import Settings.Schema.Record
import Settings.Schema.Sequence

/-!
# Alternatives by a schema

An alternative without content is stored as its bare name, or as its name over
null. Any other alternative is stored as an object with its name as the only
key.
-/

namespace Settings.Schema

/-- How the content of an alternative is read. -/
inductive Content (α : Type) where
  /-- There is none. -/
  | nothing
  /-- One value. -/
  | one (reading : Reading α)
  /-- Values spelled in place. -/
  | parts (readings : List (Reading α))
  /-- Fields spelled in place. -/
  | fields (closed : Bool) (fields : List (Field α))

/-- The name of an alternative with the number of its values. -/
def sizedParts (choice name : String) (count : Nat) : String :=
  "tuple variant " ++ choice ++ "::" ++ name ++ " with " ++ toString count ++
    (if count = 1 then " element" else " elements")

/-- An alternative that stands under its name. -/
def readContent (choice name : String) (value : Json.Value) :
    Content Json.Value → Except Mismatch Datum
  | .nothing => (readUnit value).map fun _ => .named name
  | .one reading => (reading value).map (.tagged name)
  | .parts readings =>
    match value with
    | .array [] => .error (.kind .null ("tuple variant " ++ choice ++ "::" ++ name))
    | .array values =>
      (readTuple readings (sizedParts choice name readings.length) values).map (.tagged name)
    | value => unfit value "tuple variant"
  | .fields closed fields =>
    match value with
    | .object members => (readObject closed fields members).map (.tagged name)
    | value => unfit value "struct variant"

/-- An alternative that is a bare name. -/
def readBareName {α : Type} (name : String) : Content α → Except Mismatch Datum
  | .nothing => .ok (.named name)
  | .one _ => .error (.kind .bareName "newtype variant")
  | .parts _ => .error (.kind .bareName "tuple variant")
  | .fields _ _ => .error (.kind .bareName "struct variant")

/-- The content of a named alternative. -/
def findContent {α : Type} (alternatives : List (String × Content α)) (name : String) :
    Except Mismatch (Content α) :=
  match Json.Members.find? name alternatives with
  | some content => .ok content
  | none => .error (.unknownAlternative name (alternatives.map Prod.fst))

/-- One of some alternatives: a bare name, or a name over its content. -/
def readChoice (choice : String) (alternatives : List (String × Content Json.Value)) :
    Reading Json.Value
  | .string name => do
    let content ← findContent alternatives name
    readBareName name content
  | .object [(name, value)] => do
    let content ← findContent alternatives name
    readContent choice name value content
  | .object _ => .error (.value .map "map with a single key")
  | value => unfit value "string or map"

end Settings.Schema
