import Settings.Json.Reader

/-!
# Text read without being valued

A tree has the grammar of stored text and keeps what the text says of its
scalars: the literal of a number and the pieces of a string. Whether a literal
is in range and whether escaped surrogates come in pairs is asked only of the
parts that somebody uses. Members keep their order and may repeat a key.
-/

namespace Settings.Json

/-- A text that is taken apart and not yet valued. -/
inductive Tree where
  /-- The null value. -/
  | null
  /-- A truth value. -/
  | bool (b : Bool)
  /-- A number literal. -/
  | number (literal : Literal)
  /-- The pieces of a string. -/
  | string (pieces : List Piece)
  /-- Items in order. -/
  | array (items : List Tree)
  /-- Members in order of occurrence. -/
  | object (entries : List (List Piece × Tree))
deriving Inhabited

/-- Text is read into trees; no scalar is refused. -/
def treeTarget : Target (List Piece) Tree where
  null := .null
  bool := .bool
  number literal := .ok (.number literal)
  string := fun text => untilNone piece (text.length + 1) text
  text := .string
  array := .array
  object := .object

/-- The tree of a text; any number of containers may be open. -/
def readTree (text : String) : Except Refusal Tree :=
  (whole treeTarget text.length text.toList).mapError (Failure.refusal text.toList)

/-- The characters of pieces, if their surrogates come in pairs. -/
def joinPieces : List Piece → Except Cause (List Char)
  | [] => .ok []
  | .char c :: rest => do
    let cs ← joinPieces rest
    return c :: cs
  | [.unit n] =>
    if 0xD800 ≤ n ∧ n < 0xE000 then .error .loneSurrogate else .ok [Char.ofNat n]
  | .unit n :: .char c :: rest =>
    if 0xD800 ≤ n ∧ n < 0xE000 then .error .loneSurrogate
    else do
      let cs ← joinPieces rest
      return Char.ofNat n :: c :: cs
  | .unit n :: .unit m :: rest =>
    if 0xD800 ≤ n ∧ n < 0xDC00 ∧ 0xDC00 ≤ m ∧ m < 0xE000 then do
      let cs ← joinPieces rest
      return Text.pairValue n m :: cs
    else if 0xD800 ≤ n ∧ n < 0xE000 then .error .loneSurrogate
    else do
      let cs ← joinPieces (.unit m :: rest)
      return Char.ofNat n :: cs

/-- The text of pieces. -/
def textOfPieces (pieces : List Piece) : Except Cause String :=
  (joinPieces pieces).map String.ofList

mutual

/-- The stored value of a tree, or why one of its scalars has none. -/
def Tree.value : Tree → Except Cause Value
  | .null => .ok .null
  | .bool b => .ok (.bool b)
  | .number literal => (literal.number.map .number).mapError fun _ => .outOfRange
  | .string pieces => (textOfPieces pieces).map .string
  | .array items => do
    let values ← valuesOfItems items
    return .array values
  | .object entries => do
    let members ← valuesOfEntries entries
    return .object (Members.ofEntries members)

/-- The stored values of items. -/
def valuesOfItems : List Tree → Except Cause (List Value)
  | [] => .ok []
  | item :: rest => do
    let v ← item.value
    let vs ← valuesOfItems rest
    return v :: vs

/-- The stored values of entries under their keys. -/
def valuesOfEntries : List (List Piece × Tree) → Except Cause (List (String × Value))
  | [] => .ok []
  | (key, tree) :: rest => do
    let k ← textOfPieces key
    let v ← tree.value
    let entries ← valuesOfEntries rest
    return (k, v) :: entries

end

end Settings.Json
