import Settings.Json.Quotation
import Settings.Json.Valuation

/-!
# Reading values from text

The grammar of values is stated once. What a reading builds is a parameter:
stored text becomes stored values, and scripts read the same grammar into
values of their own. The number of containers that may be open is a parameter
too, and the recursion follows it, so a text is refused where it opens one too
many. Items and members are read in a loop that takes at least one character
each time.
-/

namespace Settings.Json

/-- What a reading builds: values of type `α` with keys of type `τ`. -/
structure Target (τ α : Type) where
  /-- The null value. -/
  null : α
  /-- A truth value. -/
  bool : Bool → α
  /-- The value of a number literal, or how many of its last digits were not
  looked at when it was refused. -/
  number : Literal → Except Nat α
  /-- The rest of a string after its opening quote. -/
  string : Reader τ
  /-- A string as a value. -/
  text : τ → α
  /-- Items in order. -/
  array : List α → α
  /-- Members in order of occurrence, keys possibly repeated. -/
  object : List (τ × α) → α

/-- Space, tab, line feed and carriage return. -/
def isBlank (c : Char) : Bool :=
  c = ' ' || c = '\t' || c = '\n' || c = '\r'

/-- The text from its first character that is no blank. -/
def skipBlanks (text : List Char) : List Char :=
  text.dropWhile isBlank

/-- The remaining characters of a known word. -/
def word {α : Type} (value : α) : List Char → Reader α
  | [], text => .ok (value, text)
  | _ :: _, [] => .error (.onNext .endInValue [])
  | w :: ws, c :: rest =>
    if c = w then word value ws rest else .error (.onNext .unknownWord (c :: rest))

variable {τ α : Type}

/-- The items after the first one, with the closing bracket. -/
def moreItems (item : Reader α) : Nat → Reader (List α)
  | 0, text => .error (.onNext .endInList text)
  | fuel + 1, text =>
    match skipBlanks text with
    | [] => .error (.onNext .endInList [])
    | ']' :: rest => .ok ([], rest)
    | ',' :: rest =>
      match skipBlanks rest with
      | [] => .error (.onNext .endInValue [])
      | ']' :: rest => .error (.onNext .trailingComma (']' :: rest))
      | next => do
        let (x, rest) ← item next
        let (xs, rest) ← moreItems item fuel rest
        return (x :: xs, rest)
    | other => .error (.onNext .noListEnd other)

/-- The items of an array after its opening bracket. -/
def items (item : Reader α) : Reader (List α) := fun text =>
  match skipBlanks text with
  | [] => .error (.onNext .endInList [])
  | ']' :: rest => .ok ([], rest)
  | first => do
    let (x, rest) ← item first
    let (xs, rest) ← moreItems item rest.length rest
    return (x :: xs, rest)

/-- A member from its opening quote on. -/
def member (key : Reader τ) (item : Reader α) : Reader (τ × α)
  | '"' :: rest => do
    let (k, rest) ← key rest
    match skipBlanks rest with
    | [] => .error (.onNext .endInObject [])
    | ':' :: rest => do
      let (x, rest) ← item rest
      return ((k, x), rest)
    | other => .error (.onNext .noColon other)
  | text => .error (.onNext .keyNotString text)

/-- The members after the first one, with the closing brace. -/
def moreMembers (one : Reader (τ × α)) : Nat → Reader (List (τ × α))
  | 0, text => .error (.onNext .endInObject text)
  | fuel + 1, text =>
    match skipBlanks text with
    | [] => .error (.onNext .endInObject [])
    | '}' :: rest => .ok ([], rest)
    | ',' :: rest =>
      match skipBlanks rest with
      | [] => .error (.onNext .endInValue [])
      | '}' :: rest => .error (.onNext .trailingComma ('}' :: rest))
      | next => do
        let (x, rest) ← one next
        let (xs, rest) ← moreMembers one fuel rest
        return (x :: xs, rest)
    | other => .error (.onNext .noObjectEnd other)

/-- The members of an object after its opening brace. -/
def members (one : Reader (τ × α)) : Reader (List (τ × α)) := fun text =>
  match skipBlanks text with
  | [] => .error (.onNext .endInObject [])
  | '}' :: rest => .ok ([], rest)
  | first => do
    let (x, rest) ← one first
    let (xs, rest) ← moreMembers one rest.length rest
    return (x :: xs, rest)

/-- A number, valued by the target. -/
def number (target : Target τ α) : Reader α := fun text => do
  let (l, rest) ← literal text
  match target.number l with
  | .ok x => return (x, rest)
  | .error unseen => .error ⟨.outOfRange, Text.byteLength rest + unseen⟩

/-- A value. What stands inside a container is read by `inner`; without it no
container may be opened. -/
def value (target : Target τ α) (inner : Option (Reader α)) : Reader α := fun text =>
  match skipBlanks text with
  | [] => .error (.onNext .endInValue [])
  | 'n' :: rest => word target.null ['u', 'l', 'l'] rest
  | 't' :: rest => word (target.bool true) ['r', 'u', 'e'] rest
  | 'f' :: rest => word (target.bool false) ['a', 'l', 's', 'e'] rest
  | '"' :: rest => do
    let (s, rest) ← target.string rest
    return (target.text s, rest)
  | '[' :: rest =>
    match inner with
    | none => .error (.onNext .tooDeep ('[' :: rest))
    | some item => do
      let (xs, rest) ← items item rest
      return (target.array xs, rest)
  | '{' :: rest =>
    match inner with
    | none => .error (.onNext .tooDeep ('{' :: rest))
    | some item => do
      let (ms, rest) ← members (member target.string item) rest
      return (target.object ms, rest)
  | c :: rest =>
    if c = '-' ∨ c.isDigit then number target (c :: rest)
    else .error (.onNext .noValue (c :: rest))

/-- A value in which at most `levels` containers are open at once. -/
def nested (target : Target τ α) : Nat → Reader α
  | 0, text => value target none text
  | levels + 1, text => value target (some (nested target levels)) text

/-- A whole text: one value with blanks around it. -/
def whole (target : Target τ α) (levels : Nat) (text : List Char) : Except Failure α := do
  let (x, rest) ← nested target levels text
  match skipBlanks rest with
  | [] => return x
  | other => .error (.onNext .trailingCharacters other)

/-- How many containers a stored text may have open at once. -/
def greatestDepth : Nat := 127

/-- Stored text is read into stored values; of members with one key the last
counts. -/
def stored : Target String Value where
  null := .null
  bool := .bool
  number literal := literal.number.map .number
  string := storedString
  text := .string
  array := .array
  object entries := .object (Members.ofEntries entries)

/-- The value of a stored text. -/
def read (text : List Char) : Except Failure Value :=
  whole stored greatestDepth text

/-- The value of a stored text, or why it is refused. -/
def decode (text : String) : Except Refusal Value :=
  (read text.toList).mapError (Failure.refusal text.toList)

end Settings.Json
