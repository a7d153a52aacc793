/-!
# Decimal numbers and their digits

A decimal is a natural number of units of a power of ten. Digits are kept as
the characters `'0'` to `'9'`, most significant first, as they are read and
written.
-/

namespace Settings

/-- The number `digits * 10 ^ exponent`. -/
structure Decimal where
  /-- The number of units. -/
  digits : Nat
  /-- The power of ten that is one unit. -/
  exponent : Int
deriving DecidableEq, Repr

namespace Decimal

/-- The power of ten `10 ^ n`. -/
def tenTo (n : Nat) : Nat :=
  Nat.pow 10 n

/-- Powers of ten add their exponents. -/
theorem tenTo_add (m n : Nat) : tenTo (m + n) = tenTo m * tenTo n :=
  Nat.pow_add 10 m n

/-- A power of ten is positive. -/
theorem tenTo_pos (n : Nat) : 0 < tenTo n := Nat.pow_pos (by decide)

/-- The digits of a natural number, without leading zeros; zero is `0`. -/
def digitsOf (n : Nat) : List Char :=
  Nat.toDigits 10 n

/-- The number that digits denote; no digit at all is zero. -/
def valueOf (digits : List Char) : Nat :=
  Nat.ofDigitChars 10 digits 0

/-- The value of one digit. -/
def digitValue (digit : Char) : Nat :=
  digit.toNat - 48

/-- An integer in digits, with a minus sign in front when it is negative. -/
def integerText (n : Int) : List Char :=
  if n < 0 then '-' :: digitsOf n.natAbs else digitsOf n.natAbs

/-- Move at most `fuel` trailing zeros of the digits into the exponent. -/
def dropZeros : Nat → Decimal → Decimal
  | 0, d => d
  | fuel + 1, d =>
    if d.digits ≠ 0 ∧ d.digits % 10 = 0 then
      dropZeros fuel ⟨d.digits / 10, d.exponent + 1⟩
    else d

/-- The same number with no trailing zero left in its digits. -/
def normal (d : Decimal) : Decimal :=
  dropZeros (digitsOf d.digits).length d

/-- The exponent of the leading digit. -/
def order (d : Decimal) : Int :=
  d.exponent + ((digitsOf d.digits).length : Int) - 1

end Decimal

end Settings
