import Settings.Json.Literal
import Settings.Text.Hex
import Settings.Text.Units

/-!
# Strings in quotes

A string is read in pieces: a raw character, a short escape, or a number in
four hexadecimal digits. What a piece contributes depends on who reads. Stored
text holds scalar values, so an escaped surrogate must be half of a pair; a
script takes every escaped unit as it is.
-/

namespace Settings.Json

/-- What stands in a string, one piece of it. -/
inductive Piece where
  /-- A character, raw or with a short escape. -/
  | char (c : Char)
  /-- A number below 65536 from four hexadecimal digits. -/
  | unit (n : Nat)
deriving DecidableEq, Repr

/-- The characters that have a short escape. -/
def shortEscape? (c : Char) : Option Char :=
  if c = '"' then some '"'
  else if c = '\\' then some '\\'
  else if c = '/' then some '/'
  else if c = 'b' then some '\x08'
  else if c = 'f' then some '\x0c'
  else if c = 'n' then some '\n'
  else if c = 'r' then some '\r'
  else if c = 't' then some '\t'
  else none

/-- Four hexadecimal digits. They are taken as four bytes at once, so a text
with fewer bytes left is refused at its end; four characters have no fewer. -/
def quad : Reader Nat := fun text =>
  if Text.byteLength (text.take 4) < 4 then .error (.onNext .endInString [])
  else
    match text with
    | a :: b :: c :: d :: rest =>
      match Text.readQuad? a b c d with
      | some n => .ok (n, rest)
      | none => .error ⟨.invalidEscape, Text.byteLength text - 4⟩
    | _ => .error ⟨.invalidEscape, Text.byteLength text - 4⟩

/-- What follows a backslash. -/
def escape : Reader Piece
  | [] => .error (.onNext .endInString [])
  | c :: rest =>
    if c = 'u' then do
      let (n, rest) ← quad rest
      return (.unit n, rest)
    else
      match shortEscape? c with
      | some c => .ok (.char c, rest)
      | none => .error (.onNext .invalidEscape (c :: rest))

/-- The next piece of a string, or nothing at the closing quote. -/
def piece : Reader (Option Piece)
  | [] => .error (.onNext .endInString [])
  | '"' :: rest => .ok (none, rest)
  | '\\' :: rest => do
    let (p, rest) ← escape rest
    return (some p, rest)
  | c :: rest =>
    if c.toNat < 32 then .error (.onNext .controlCharacter (c :: rest))
    else .ok (some (.char c), rest)

/-- The second half of an escaped pair whose first half is given. -/
def secondHalf (high : Nat) : Reader Char
  | [] => .error (.onNext .endInString [])
  | '\\' :: [] => .error (.onNext .endInString [])
  | '\\' :: 'u' :: rest => do
    let (low, rest) ← quad rest
    if 0xDC00 ≤ low ∧ low < 0xE000 then return (Text.pairValue high low, rest)
    else .error (.before .loneSurrogate rest)
  | '\\' :: rest => .error (.onNext .unfinishedPair rest)
  | rest => .error (.onNext .unfinishedPair rest)

/-- The next character of a string of stored text. -/
def storedChar : Reader (Option Char) := fun text => do
  match ← piece text with
  | (none, rest) => return (none, rest)
  | (some (.char c), rest) => return (some c, rest)
  | (some (.unit n), rest) =>
    if 0xDC00 ≤ n ∧ n < 0xE000 then .error (.before .loneSurrogate rest)
    else if 0xD800 ≤ n ∧ n < 0xDC00 then do
      let (c, rest) ← secondHalf n rest
      return (some c, rest)
    else return (some (Char.ofNat n), rest)

/-- Repeat a reader until it reads nothing; no more than `fuel` times. -/
def untilNone {α : Type} (next : Reader (Option α)) : Nat → Reader (List α)
  | 0, text => .error (.onNext .endInString text)
  | fuel + 1, text => do
    match ← next text with
    | (none, rest) => return ([], rest)
    | (some x, rest) =>
      let (xs, rest) ← untilNone next fuel rest
      return (x :: xs, rest)

/-- The rest of a string of stored text, after its opening quote. -/
def storedString : Reader String := fun text => do
  let (chars, rest) ← untilNone storedChar (text.length + 1) text
  return (String.ofList chars, rest)

end Settings.Json
