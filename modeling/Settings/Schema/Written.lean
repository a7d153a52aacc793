import Settings.Json.Tree
import Settings.Schema.Read

/-!
# Typed values from text

A typed value can be written as text without ever being stored. Reading it from
the text takes what storing would not keep: an integer of more than 64 bits is
the integer that its digits say, and members that a record ignores need not
denote a value. A record must not repeat a field. In all else it reads what a
stored value of the same text gives, and an alternative with fields may also
stand as an array.
-/

namespace Settings.Schema

open Json (Tree)

/-- A reading of stored values, of the value of a tree. -/
def readValued (reading : Reading Json.Value) : Reading Tree := fun tree =>
  match tree.value with
  | .ok value => reading value
  | .error cause => .error (.refused cause)

/-- A tree of another kind than wanted. -/
def unfitTree (wanted : String) : Reading Tree :=
  readValued fun value => unfit value wanted

/-- An integer of a kind that stored integers do not fill, from its digits. -/
def readWide (kind : IntegerKind) : Reading Tree
  | .number ⟨negative, whole, [], none⟩ =>
    let n : Int := if negative then -(Decimal.valueOf whole : Int) else Decimal.valueOf whole
    if kind.least ≤ n ∧ n < kind.limit ∧ (kind.signed ∨ !negative) then .ok (.integer n)
    else .error (.refused .outOfRange)
  | tree => readValued (readInteger kind) tree

/-- An integer of a kind. -/
def readIntegerTree (kind : IntegerKind) : Reading Tree :=
  if kind.bits ≤ 64 then readValued (readInteger kind) else readWide kind

/-- Any stored value, which has no more open containers than stored text. -/
def readAnyTree : Reading Tree :=
  readValued fun value =>
    if value.depth ≤ Json.greatestDepth then .ok (.stored value) else .error (.refused .tooDeep)

/-- Null is a missing value, any other tree is read by its schema. -/
def readOptionTree (content : Reading Tree) : Reading Tree
  | .null => .ok .absent
  | tree => (content tree).map .present

/-- A list of any length. -/
def readListTree (item : Reading Tree) : Reading Tree
  | .array items => do
    let ds ← readItems item items
    return .sequence ds
  | tree => unfitTree "a sequence" tree

/-- A tuple from an array. -/
def readTupleTree (parts : List (Reading Tree)) (wanted : String) : Reading Tree
  | .array items => readTuple parts wanted items
  | tree => unfitTree wanted tree

/-- The text of a key. -/
def keyText (pieces : List Json.Piece) : Except Mismatch String :=
  (Json.textOfPieces pieces).mapError .refused

/-- Entries under the texts of their keys. -/
def namedEntries : List (List Json.Piece × Tree) → Except Mismatch (List (String × Tree))
  | [] => .ok []
  | (key, tree) :: rest => do
    let k ← keyText key
    let entries ← namedEntries rest
    return (k, tree) :: entries

/-- A map from an object; of entries with one key the last counts. -/
def readMapTree (key : KeySchema) (content : Reading Tree) : Reading Tree
  | .object entries => do
    let members ← namedEntries entries
    readMapMembers key content members
  | tree => unfitTree "a map" tree

/-- A record from the entries of an object, none of its fields twice. -/
def readEntriesTree (closed : Bool) (fields : List (Field Tree))
    (entries : List (List Json.Piece × Tree)) : Except Mismatch Datum := do
  let members ← namedEntries entries
  match fields.find? fun field => 1 < (members.map Prod.fst).count field.name with
  | some field => .error (.repeatedField field.name)
  | none => readObject closed fields members

/-- A record from an object or from an array. -/
def readRecordTree (name : String) (closed : Bool) (fields : List (Field Tree)) : Reading Tree
  | .object entries => readEntriesTree closed fields entries
  | .array items => readArray ("struct " ++ name) fields items
  | tree => unfitTree ("struct " ++ name) tree

/-- An alternative that stands under its name. -/
def readContentTree (choice name : String) (tree : Tree) : Content Tree → Except Mismatch Datum
  | .nothing => (readValued readUnit tree).map fun _ => .named name
  | .one reading => (reading tree).map (.tagged name)
  | .parts readings =>
    (readTupleTree readings (sizedParts choice name readings.length) tree).map (.tagged name)
  | .fields closed fields =>
    match tree with
    | .object entries => (readEntriesTree closed fields entries).map (.tagged name)
    | .array items =>
      (readArray ("struct variant " ++ choice ++ "::" ++ name) fields items).map (.tagged name)
    | tree => unfitTree "struct variant" tree

/-- One of some alternatives: a bare name, or a name over its content. -/
def readChoiceTree (choice : String) (alternatives : List (String × Content Tree)) : Reading Tree
  | .string pieces => do
    let name ← keyText pieces
    let content ← findContent alternatives name
    readBareName name content
  | .object [(key, tree)] => do
    let name ← keyText key
    let content ← findContent alternatives name
    readContentTree choice name tree content
  | .object _ => .error (.value .map "map with a single key")
  | tree => unfitTree "string or map" tree

/-- How trees are read. -/
def writtenReaders : Readers Tree where
  bool := readValued readBool
  integer := readIntegerTree
  single := readValued readSingle
  double := readValued readDouble
  char := readValued readChar
  text := readValued readText
  unit := readValued readUnit
  any := readAnyTree
  option := readOptionTree
  list := readListTree
  tuple := readTupleTree
  map := readMapTree
  record := readRecordTree
  choice := readChoiceTree

/-- The typed value of a text by a schema, or the message why it has none. -/
def ofText (schema : Schema) (text : String) : Except String Datum :=
  match Json.readTree text with
  | .error refusal => .error refusal.message
  | .ok tree => (readWith writtenReaders schema tree).mapError Mismatch.message

end Settings.Schema
