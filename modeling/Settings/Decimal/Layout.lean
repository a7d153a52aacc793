import Settings.Decimal.Basic

/-!
# Laying out a decimal

Which digits a number has is decided elsewhere. A layout decides how they are
written: a number whose leading digit has an exponent between two bounds is
positional, any other has one digit before the point and an exponent that
carries its sign and no padding.
-/

namespace Settings.Decimal

/-- The decisions of a number format. -/
structure Layout where
  /-- The least exponent of the leading digit that is written positionally. -/
  plainFrom : Int
  /-- The greatest such exponent. -/
  plainTo : Int
  /-- Whether an integral number in positional form ends in `.0`. -/
  pointZero : Bool

/-- A run of the digit zero. -/
def zeros (count : Nat) : List Char :=
  List.replicate count '0'

/-- Positional form of digits whose first has the exponent `lead`: the point
stands before, inside or after them. -/
def Layout.positional (layout : Layout) (digits : List Char) (lead : Int) : List Char :=
  if lead < 0 then
    ['0', '.'] ++ zeros (-lead - 1).toNat ++ digits
  else if digits.length ≤ lead.toNat + 1 then
    digits ++ zeros (lead.toNat + 1 - digits.length) ++
      (if layout.pointZero then ['.', '0'] else [])
  else
    digits.take (lead.toNat + 1) ++ '.' :: digits.drop (lead.toNat + 1)

/-- An exponent with its sign, which is always written. -/
def exponentText (exponent : Int) : List Char :=
  'e' :: (if exponent < 0 then '-' else '+') :: digitsOf exponent.natAbs

/-- Exponent form: one digit, the others after a point if there are any. -/
def scientific (digits : List Char) (lead : Int) : List Char :=
  match digits with
  | [] => []
  | [digit] => digit :: exponentText lead
  | digit :: rest => digit :: '.' :: (rest ++ exponentText lead)

/-- A decimal without trailing zeros, as the layout writes it. -/
def Layout.text (layout : Layout) (d : Decimal) : List Char :=
  if layout.plainFrom ≤ d.order ∧ d.order ≤ layout.plainTo then
    layout.positional (digitsOf d.digits) d.order
  else
    scientific (digitsOf d.digits) d.order

end Settings.Decimal
