import Settings.Schema.Choice
import Settings.Schema.Map

/-!
# Reading by a schema

The reading of a schema is put together from the readings of its parts. What
the parts are read from is a parameter: `Readers` says how scalars are read and
how readings are combined. Read from stored values, a schema either gives a
typed value or says why the stored one does not fit; no kind of value is
converted into another.
-/

namespace Settings.Schema

/-- How each form of schema is read from things of type `α`. -/
structure Readers (α : Type) where
  /-- A truth value. -/
  bool : Reading α
  /-- An integer of a kind. -/
  integer : IntegerKind → Reading α
  /-- A number of 32 bits. -/
  single : Reading α
  /-- A number of 64 bits. -/
  double : Reading α
  /-- One character. -/
  char : Reading α
  /-- A text. -/
  text : Reading α
  /-- The only value of its type. -/
  unit : Reading α
  /-- Any stored value. -/
  any : Reading α
  /-- A value that may be missing. -/
  option : Reading α → Reading α
  /-- Values of one schema. -/
  list : Reading α → Reading α
  /-- As many values as there are readings, and what they are called. -/
  tuple : List (Reading α) → String → Reading α
  /-- Values under keys. -/
  map : KeySchema → Reading α → Reading α
  /-- Named fields. -/
  record : String → Bool → List (Field α) → Reading α
  /-- One of some named alternatives. -/
  choice : String → List (String × Content α) → Reading α

/-- What a missing field is by its schema alone. -/
def ifMissing : Schema → Option Datum
  | .option _ => some .absent
  | _ => none

variable {α : Type}

mutual

/-- The reading of a schema. -/
def readWith (readers : Readers α) : Schema → Reading α
  | .bool => readers.bool
  | .integer kind => readers.integer kind
  | .single => readers.single
  | .double => readers.double
  | .char => readers.char
  | .text => readers.text
  | .unit => readers.unit
  | .any => readers.any
  | .option content => readers.option (readWith readers content)
  | .list item => readers.list (readWith readers item)
  | .tuple parts => readers.tuple (readings readers parts) (tupleName parts.length)
  | .array length item =>
    readers.tuple (List.replicate length (readWith readers item))
      ("an array of length " ++ toString length)
  | .map key content => readers.map key (readWith readers content)
  | .record name closed fields => readers.record name closed (fieldsOf readers fields)
  | .choice name alternatives => readers.choice name (contents readers alternatives)

/-- The readings of the parts of a tuple. -/
def readings (readers : Readers α) : List Schema → List (Reading α)
  | [] => []
  | part :: parts => readWith readers part :: readings readers parts

/-- The fields of a record with their readings. -/
def fieldsOf (readers : Readers α) : List (String × Option Datum × Schema) → List (Field α)
  | [] => []
  | (name, default, schema) :: rest =>
    ⟨name, default, default.or (ifMissing schema), readWith readers schema⟩ ::
      fieldsOf readers rest

/-- The alternatives of a choice with the readings of their contents. -/
def contents (readers : Readers α) : List (String × Schema) → List (String × Content α)
  | [] => []
  | (name, .unit) :: rest => (name, .nothing) :: contents readers rest
  | (name, .tuple parts) :: rest =>
    (name, .parts (readings readers parts)) :: contents readers rest
  | (name, .record _ closed fields) :: rest =>
    (name, .fields closed (fieldsOf readers fields)) :: contents readers rest
  | (name, schema) :: rest => (name, .one (readWith readers schema)) :: contents readers rest

end

/-- How stored values are read. -/
def storedReaders : Readers Json.Value where
  bool := readBool
  integer := readInteger
  single := readSingle
  double := readDouble
  char := readChar
  text := readText
  unit := readUnit
  any := fun value => .ok (.stored value)
  option := readOption
  list := readList
  tuple := readTupleValue
  map := readMap
  record := readRecord
  choice := readChoice

/-- A stored value as a typed one. -/
def read (schema : Schema) : Reading Json.Value :=
  readWith storedReaders schema

end Settings.Schema
