import Settings.Text.Position

/-!
# Why a text is refused

A failure is a cause and a place. The place is kept as the number of bytes that
the reader had not passed when it stopped, so it can be stated of the rest of a
text alone; the line and the column are worked out from the whole text. A
reader stops one byte after the place that it refuses, or at the end.
-/

namespace Settings.Json

/-- What a text is refused for. -/
inductive Cause where
  /-- The text ends where a value has to stand. -/
  | endInValue
  /-- The text ends inside an array. -/
  | endInList
  /-- The text ends inside an object. -/
  | endInObject
  /-- The text ends inside a string. -/
  | endInString
  /-- A word that is none of the three known ones. -/
  | unknownWord
  /-- No value starts here. -/
  | noValue
  /-- Neither a comma nor the end of the array follows an item. -/
  | noListEnd
  /-- Neither a comma nor the end of the object follows a member. -/
  | noObjectEnd
  /-- No colon follows a key. -/
  | noColon
  /-- A key has to be a string. -/
  | keyNotString
  /-- A comma with nothing after it. -/
  | trailingComma
  /-- Something follows the value. -/
  | trailingCharacters
  /-- One container too many is open. -/
  | tooDeep
  /-- A raw character below U+0020 in a string. -/
  | controlCharacter
  /-- An unknown escape, or four characters that are no hexadecimal digits. -/
  | invalidEscape
  /-- An escaped surrogate that is not part of a pair. -/
  | loneSurrogate
  /-- An escaped first surrogate with no escape after it. -/
  | unfinishedPair
  /-- A number that the grammar does not have. -/
  | invalidNumber
  /-- A number beyond every finite double. -/
  | outOfRange
deriving DecidableEq, Repr

/-- The words for a cause. -/
def Cause.message : Cause → String
  | .endInValue => "EOF while parsing a value"
  | .endInList => "EOF while parsing a list"
  | .endInObject => "EOF while parsing an object"
  | .endInString => "EOF while parsing a string"
  | .unknownWord => "expected ident"
  | .noValue => "expected value"
  | .noListEnd => "expected `,` or `]`"
  | .noObjectEnd => "expected `,` or `\x7d`"
  | .noColon => "expected `:`"
  | .keyNotString => "key must be a string"
  | .trailingComma => "trailing comma"
  | .trailingCharacters => "trailing characters"
  | .tooDeep => "recursion limit exceeded"
  | .controlCharacter => "control character (\\u0000-\\u001F) found while parsing a string"
  | .invalidEscape => "invalid escape"
  | .loneSurrogate => "lone leading surrogate in hex escape"
  | .unfinishedPair => "unexpected end of hex escape"
  | .invalidNumber => "invalid number"
  | .outOfRange => "number out of range"

/-- A cause and how many bytes were left when it was found. -/
structure Failure where
  /-- What was found. -/
  cause : Cause
  /-- The bytes after the place. -/
  unread : Nat
deriving DecidableEq, Repr

/-- A failure one byte into the rest of a text, or at its end. -/
def Failure.onNext (cause : Cause) (rest : List Char) : Failure :=
  ⟨cause, Text.byteLength rest - 1⟩

/-- A failure in front of the rest of a text. -/
def Failure.before (cause : Cause) (rest : List Char) : Failure :=
  ⟨cause, Text.byteLength rest⟩

/-- The line and column of a failure in the text that was read. -/
def Failure.position (text : List Char) (failure : Failure) : Text.Position :=
  Text.Position.ofIndex text (Text.byteLength text - failure.unread)

/-- Why and where a whole text is refused. -/
structure Refusal where
  /-- What was found. -/
  cause : Cause
  /-- Where it was found. -/
  place : Text.Position
deriving DecidableEq, Repr

/-- The refusal of a text in which a reader failed. -/
def Failure.refusal (text : List Char) (failure : Failure) : Refusal :=
  ⟨failure.cause, failure.position text⟩

/-- The message of a refusal. -/
def Refusal.message (refusal : Refusal) : String :=
  refusal.cause.message ++ refusal.place.suffix

end Settings.Json
