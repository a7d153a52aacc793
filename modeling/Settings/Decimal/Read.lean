import Settings.Binary.Rounding

/-!
# Numbers from decimal text

A decimal text is read exactly and rounded once to the wanted format. It may
have a sign, a point with digits on either side and an exponent; NaN and the
infinities are words. Unlike in stored text, leading zeros and a bare point
beside a digit are allowed.
-/

namespace Settings

namespace Decimal

/-- The sign in front of a text. -/
def takeSign : List Char → Bool × List Char
  | '-' :: rest => (true, rest)
  | '+' :: rest => (false, rest)
  | text => (false, text)

/-- A whole number in digits, with a sign in front. -/
def readInteger? (text : List Char) : Option Int :=
  let (negative, digits) := takeSign text
  if digits.isEmpty || !digits.all Char.isDigit then none
  else some (if negative then -(valueOf digits : Int) else valueOf digits)

/-- The exponent after the digits, zero if nothing follows them. -/
def readPower? : List Char → Option Int
  | [] => some 0
  | c :: rest => if c = 'e' ∨ c = 'E' then readInteger? rest else none

/-- An unsigned decimal. -/
def read? (text : List Char) : Option Decimal := do
  let whole := text.takeWhile Char.isDigit
  let rest := text.dropWhile Char.isDigit
  let (fraction, rest) :=
    match rest with
    | '.' :: rest => (rest.takeWhile Char.isDigit, rest.dropWhile Char.isDigit)
    | rest => ([], rest)
  let power ← readPower? rest
  if whole.isEmpty && fraction.isEmpty then none
  else return ⟨valueOf (whole ++ fraction), power - fraction.length⟩

/-- The words for NaN and for an infinity, in lower case. -/
def special? {F : Binary.Format} (negative : Bool) (word : String) : Option (Binary F) :=
  if word = "nan" then some .nan
  else if word = "inf" ∨ word = "infinity" then some (.infinite negative)
  else none

end Decimal

/-- The number of a format nearest to a decimal text, if it is one. -/
def Binary.ofText? (F : Binary.Format) (text : String) : Option (Binary F) :=
  let (negative, magnitude) := Decimal.takeSign text.toList
  match Decimal.special? negative (String.ofList (magnitude.map Char.toLower)) with
  | some x => some x
  | none => (Decimal.read? magnitude).map (Binary.ofDecimal F negative)

end Settings
