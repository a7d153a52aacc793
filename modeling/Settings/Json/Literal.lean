import Settings.Decimal.Basic
import Settings.Json.Failure

/-!
# Number literals

A literal is scanned into its parts without being valued: a sign, digits before
the point, digits after it and a written exponent. What number the parts denote
is a matter of the reader that uses them.
-/

namespace Settings.Json

/-- A reader takes a value from the front of a text and returns the rest. -/
abbrev Reader (α : Type) := List Char → Except Failure (α × List Char)

/-- A power of ten as it is written after the mark `e`. -/
structure Power where
  /-- Whether a minus sign is written. -/
  negative : Bool
  /-- The digits, of which there is at least one. -/
  digits : List Char
deriving DecidableEq, Repr

/-- The parts of a number literal. -/
structure Literal where
  /-- Whether a minus sign is written. -/
  negative : Bool
  /-- The digits before the point. -/
  whole : List Char
  /-- The digits after the point; none if there is no point. -/
  fraction : List Char
  /-- The written exponent. -/
  power : Option Power
deriving DecidableEq, Repr

/-- The exponent that a written power denotes. -/
def Power.value (power : Power) : Int :=
  if power.negative then -(Decimal.valueOf power.digits : Int)
  else Decimal.valueOf power.digits

/-- The exact magnitude of a literal. -/
def Literal.magnitude (literal : Literal) : Decimal :=
  ⟨Decimal.valueOf (literal.whole ++ literal.fraction),
    (literal.power.map Power.value).getD 0 - literal.fraction.length⟩

/-- Digits are expected: the failure on a text that starts with none. -/
def missingDigit (rest : List Char) : Failure :=
  match rest with
  | [] => .onNext .endInValue []
  | c :: rest => .onNext .invalidNumber (c :: rest)

/-- At least one digit, as many as there are. -/
def digits : Reader (List Char) := fun text =>
  match text.takeWhile Char.isDigit with
  | [] => .error (missingDigit text)
  | c :: more => .ok (c :: more, text.dropWhile Char.isDigit)

/-- The digits before the point: zero alone, or no leading zero. -/
def wholeDigits : Reader (List Char)
  | '0' :: c :: rest =>
    if c.isDigit then .error (.onNext .invalidNumber (c :: rest)) else .ok (['0'], c :: rest)
  | text => digits text

/-- The digits after a point, if there is one. -/
def fractionDigits : Reader (List Char)
  | '.' :: rest => digits rest
  | text => .ok ([], text)

/-- The sign of a written exponent. -/
def powerSign : List Char → Bool × List Char
  | '+' :: rest => (false, rest)
  | '-' :: rest => (true, rest)
  | text => (false, text)

/-- A written exponent, if there is one. -/
def writtenPower : Reader (Option Power)
  | c :: rest =>
    if c = 'e' ∨ c = 'E' then do
      let (negative, rest) := powerSign rest
      let (ds, rest) ← digits rest
      return (some ⟨negative, ds⟩, rest)
    else .ok (none, c :: rest)
  | [] => .ok (none, [])

/-- The sign of a literal. -/
def literalSign : List Char → Bool × List Char
  | '-' :: rest => (true, rest)
  | text => (false, text)

/-- A number literal. -/
def literal : Reader Literal := fun text => do
  let (negative, rest) := literalSign text
  let (whole, rest) ← wholeDigits rest
  let (fraction, rest) ← fractionDigits rest
  let (power, rest) ← writtenPower rest
  return (⟨negative, whole, fraction, power⟩, rest)

end Settings.Json
