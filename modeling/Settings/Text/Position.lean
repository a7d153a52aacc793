/-!
# Lines and columns of a byte index

A text is measured in UTF-8 bytes. The line of an index is one more than the
number of line feeds before it, its column the number of bytes since the last
of them. An index may fall inside a character of several bytes; it then counts
the bytes of that character before it.
-/

namespace Settings.Text

/-- The number of UTF-8 bytes of a text. -/
def byteLength : List Char → Nat
  | [] => 0
  | c :: rest => c.utf8Size + byteLength rest

/-- A line, counted from one, and a byte column in it. -/
structure Position where
  /-- One more than the number of line feeds before the place. -/
  line : Nat
  /-- The bytes since the last line feed. -/
  column : Nat
deriving DecidableEq, Repr

/-- Walk `bytes` bytes of a text from a known position. -/
def Position.walk : List Char → Nat → Position → Position
  | [], _, here => here
  | c :: rest, bytes, here =>
    if bytes < c.utf8Size then { here with column := here.column + bytes }
    else if c = '\n' then Position.walk rest (bytes - c.utf8Size) ⟨here.line + 1, 0⟩
    else
      Position.walk rest (bytes - c.utf8Size)
        { here with column := here.column + c.utf8Size }

/-- The position of the byte index `bytes` in a text. -/
def Position.ofIndex (text : List Char) (bytes : Nat) : Position :=
  Position.walk text bytes ⟨1, 0⟩

/-- The position in a text at which the rest of it starts. -/
def Position.before (text rest : List Char) : Position :=
  Position.ofIndex text (byteLength text - byteLength rest)

/-- A position as it ends a message. -/
def Position.suffix (place : Position) : String :=
  " at line " ++ toString place.line ++ " column " ++ toString place.column

/-- What stands before and after the last occurrence of a mark. -/
def splitLast? (mark : List Char) : List Char → Option (List Char × List Char)
  | [] => none
  | c :: rest =>
    match splitLast? mark rest with
    | some (before, after) => some (c :: before, after)
    | none => if mark.isPrefixOf (c :: rest) then some ([], (c :: rest).drop mark.length) else none

/-- The number of a text of digits that fits in 64 bits. -/
def placeNumber? (digits : List Char) : Option Nat :=
  if digits.isEmpty || !digits.all Char.isDigit then none
  else if Nat.ofDigitChars 10 digits 0 < 18446744073709551616 then
    some (Nat.ofDigitChars 10 digits 0)
  else none

/-- A message that ends in a position, taken apart. -/
def Position.split? (message : List Char) : Option (List Char × Position) := do
  let (before, after) ← splitLast? " at line ".toList message
  let column := after.dropWhile Char.isDigit
  let mark := " column ".toList
  if mark.isPrefixOf column then
    let l ← placeNumber? (after.takeWhile Char.isDigit)
    let c ← placeNumber? (column.drop mark.length)
    return (before, ⟨l, c⟩)
  else none

/-- A message as it is shown: a position at its end is read and written again,
and one in line zero is no position at all. -/
def shown (message : String) : String :=
  match Position.split? message.toList with
  | some (before, place) =>
    if place.line = 0 then String.ofList before else String.ofList before ++ place.suffix
  | none => message

end Settings.Text
