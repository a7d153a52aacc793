import Settings.Datum.Stored

/-!
# The text of a typed value

A typed value can be written without being stored first. Its text then keeps
what the stored form forgets: fields stand in order of declaration, entries in
the order of the map, a number of 32 bits has the digits of its own width and
an integer may have any size.
-/

namespace Settings.Datum

/-- A finite number in a layout; any other is null. -/
def finiteText {F : Binary.Format} (layout : Decimal.Layout) : Binary F → List Char
  | .finite x => x.textIn layout
  | _ => ['n', 'u', 'l', 'l']

/-- Texts in a row, separated by commas, between two characters. -/
def enclosed (first last : Char) (parts : List (List Char)) : List Char :=
  first :: ((parts.intersperse [',']).flatten ++ [last])

mutual

/-- The text of a typed value. -/
def write : Datum → Except Refusal (List Char)
  | .bool true => .ok ['t', 'r', 'u', 'e']
  | .bool false => .ok ['f', 'a', 'l', 's', 'e']
  | .integer n => .ok (Decimal.integerText n)
  | .single x => .ok (finiteText Binary.storedSingle x)
  | .double x => .ok (finiteText Binary.storedDouble x)
  | .char c => .ok (Json.quote [c])
  | .text s => .ok (Json.quote s.toList)
  | .bytes bs => .ok (enclosed '[' ']' (bs.map fun b => Decimal.digitsOf b.toNat))
  | .absent => .ok ['n', 'u', 'l', 'l']
  | .present d => d.write
  | .unit => .ok ['n', 'u', 'l', 'l']
  | .named name => .ok (Json.quote name.toList)
  | .wrapped d => d.write
  | .tagged name d => do
    let text ← d.write
    return enclosed '{' '}' [Json.quote name.toList ++ ':' :: text]
  | .sequence ds => do
    let parts ← writeAll ds
    return enclosed '[' ']' parts
  | .map entries => do
    let parts ← writeEntries entries
    return enclosed '{' '}' parts
  | .record fields => do
    let parts ← writeFields fields
    return enclosed '{' '}' parts
  | .stored v => .ok v.text
  | .refusing reason => .error (.refused reason)

/-- The texts of a sequence. -/
def writeAll : List Datum → Except Refusal (List (List Char))
  | [] => .ok []
  | d :: rest => do
    let part ← d.write
    let parts ← writeAll rest
    return part :: parts

/-- The texts of the entries of a map, each with its key. -/
def writeEntries : List (Datum × Datum) → Except Refusal (List (List Char))
  | [] => .ok []
  | (key, d) :: rest => do
    let k ← key.toKey
    let part ← d.write
    let parts ← writeEntries rest
    return (Json.quote k.toList ++ ':' :: part) :: parts

/-- The texts of the fields of a record, each with its name. -/
def writeFields : List (String × Datum) → Except Refusal (List (List Char))
  | [] => .ok []
  | (name, d) :: rest => do
    let part ← d.write
    let parts ← writeFields rest
    return (Json.quote name.toList ++ ':' :: part) :: parts

end

/-- The text of a typed value as a string. -/
def encode (d : Datum) : Except Refusal String :=
  d.write.map String.ofList

end Settings.Datum
