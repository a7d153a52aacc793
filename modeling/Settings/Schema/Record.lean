import Settings.Json.Members
import Settings.Schema.Scalar

/-!
# Records by a schema

A record is stored as an object, or as an array of its fields in order. The
members of an object are read in the order of their keys; fields that are
missing are looked for afterwards, in order of declaration.
-/

namespace Settings.Schema

/-- A field of a record: its name, what it is when an array does not reach it,
what it is when an object does not have it, and how it is read. -/
structure Field (α : Type) where
  /-- The name. -/
  name : String
  /-- The value it has when an array is too short for it. -/
  unreached : Option Datum
  /-- The value it has when an object lacks it. -/
  missing : Option Datum
  /-- How its value is read. -/
  reading : Reading α

variable {α : Type}

/-- The name of a record with the number of its fields. -/
def sized (wanted : String) (fields : List (Field α)) : String :=
  wanted ++ " with " ++ toString fields.length ++
    (if fields.length = 1 then " element" else " elements")

/-- Fields in order of declaration from the items of an array. -/
def readPlaces (wanted : String) :
    Nat → List (Field α) → List α → Except Mismatch (List (String × Datum))
  | _, [], _ => .ok []
  | place, field :: fields, [] =>
    match field.unreached with
    | none => .error (.length place wanted)
    | some d => do
      let ds ← readPlaces wanted (place + 1) fields []
      return (field.name, d) :: ds
  | place, field :: fields, value :: rest => do
    let d ← field.reading value
    let ds ← readPlaces wanted (place + 1) fields rest
    return (field.name, d) :: ds

/-- Whether every member fits: a known field is read, another is an error of a
closed record only. -/
def readMembers (closed : Bool) (fields : List (Field α)) :
    List (String × α) → Except Mismatch (List (String × Datum))
  | [] => .ok []
  | (name, value) :: rest => do
    match fields.find? fun field => field.name = name with
    | some field =>
      let d ← field.reading value
      let ds ← readMembers closed fields rest
      return (name, d) :: ds
    | none =>
      if closed then .error (.unknownField name (fields.map Field.name))
      else readMembers closed fields rest

/-- The fields in order of declaration from those that were read. -/
def fillFields (present : List (String × Datum)) :
    List (Field α) → Except Mismatch (List (String × Datum))
  | [] => .ok []
  | field :: fields => do
    match (Json.Members.find? field.name present).or field.missing with
    | none => .error (.missingField field.name)
    | some d =>
      let ds ← fillFields present fields
      return (field.name, d) :: ds

/-- A record from the members of an object. -/
def readObject (closed : Bool) (fields : List (Field α)) (members : List (String × α)) :
    Except Mismatch Datum := do
  let present ← readMembers closed fields members
  let ds ← fillFields present fields
  return .record ds

/-- A record from the items of an array. -/
def readArray (wanted : String) (fields : List (Field α)) (values : List α) :
    Except Mismatch Datum := do
  let ds ← readPlaces (sized wanted fields) 0 fields values
  if values.length ≤ fields.length then return .record ds
  else .error (.length values.length "fewer elements in array")

/-- A record from an object or from an array. -/
def readRecord (name : String) (closed : Bool) (fields : List (Field Json.Value)) :
    Reading Json.Value
  | .object members => readObject closed fields members
  | .array values => readArray ("struct " ++ name) fields values
  | value => unfit value ("struct " ++ name)

end Settings.Schema
