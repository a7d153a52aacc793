import Settings.Binary.Rounding
import Settings.Json.Reader
import Settings.Script.Value

/-!
# Script values from stored text

A script reads the grammar of stored text by rules of its own: a number is the
double nearest to its literal, an infinity if that is what is nearest, escaped
units are taken as they are, and any number of containers may be open.
-/

namespace Settings.Script

open Text (Units)

/-- The units of one piece of a string. -/
def pieceUnits : Json.Piece → Units
  | .char c => Text.unitsOfChar c
  | .unit n => [n.toUInt16]

/-- The rest of a string after its opening quote, in units. -/
def unitString : Json.Reader Units := fun text => do
  let (pieces, rest) ← Json.untilNone Json.piece (text.length + 1) text
  return (pieces.flatMap pieceUnits, rest)

/-- Stored text is read into script values. -/
def target : Json.Target Units Value where
  null := .null
  bool := .bool
  number literal :=
    .ok (.number (Binary.ofDecimal Binary.double literal.negative literal.magnitude))
  string := unitString
  text := .string
  array := .array
  object := Value.ofEntries

/-- The script value of a text. -/
def parse (text : List Char) : Except Json.Failure Value :=
  Json.whole target text.length text

/-- The error object that a refused text throws. -/
def parseError (text : List Char) (failure : Json.Failure) : Value :=
  .error "SyntaxError" (Text.unitsOf (failure.refusal text).message)

end Settings.Script
