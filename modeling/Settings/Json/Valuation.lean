import Settings.Binary.Rounding
import Settings.Json.Literal
import Settings.Json.Value

/-!
# The number a stored literal denotes

Digits are collected into a significand of 64 bits. A literal that has neither
point nor exponent and whose significand and sign give an integer of the stored
range is that integer; minus zero is not one. Every other literal is a double:
the significand is rounded to a double, and the double is multiplied or divided
by powers of ten that are doubles themselves. Each step rounds, so the result
need not be the double nearest to the literal.
-/

namespace Settings.Json

/-- The greatest significand. -/
def greatestSignificand : Nat := 18446744073709551615

/-- The greatest written exponent that is looked at. -/
def greatestPower : Nat := 2147483647

/-- Take leading digits into a number as long as it does not exceed a limit;
the digits that were not taken follow. -/
def accumulate (limit : Nat) : Nat → List Char → Nat × List Char
  | n, [] => (n, [])
  | n, c :: rest =>
    if 10 * n + Decimal.digitValue c ≤ limit then
      accumulate limit (10 * n + Decimal.digitValue c) rest
    else (n, c :: rest)

/-- The magnitude of a literal as far as it is collected, its written exponent
apart. A digit before the point that is left over raises the exponent; one
after the point is dropped with all that follow it. -/
def Literal.collected (literal : Literal) : Decimal :=
  let whole := accumulate greatestSignificand 0 literal.whole
  let all := accumulate greatestSignificand whole.1 literal.fraction
  ⟨all.1, (whole.2.length : Int) - (literal.fraction.length - all.2.length : Nat)⟩

/-- The rank of the double nearest to a power of ten. -/
def tenRank (n : Nat) : Nat :=
  Binary.nearestDecimal Binary.double ⟨1, n⟩

/-- A finite rank times a power of ten, each step rounded. An exponent beyond
308 is approached in steps of 308, which ends at zero or fails. -/
def scaleByTen : Nat → Nat → Int → Option Nat
  | 0, _, _ => none
  | fuel + 1, rank, exponent =>
    if exponent.natAbs ≤ 308 then
      some (if 0 ≤ exponent then Binary.productRank Binary.double rank (tenRank exponent.natAbs)
        else Binary.quotientRank Binary.double rank (tenRank exponent.natAbs))
    else if rank = 0 then some 0
    else if 0 ≤ exponent then none
    else scaleByTen fuel (Binary.quotientRank Binary.double rank (tenRank 308)) (exponent + 308)

/-- The double of a collected magnitude, or nothing if it is not finite. -/
def floatOf (negative : Bool) (collected : Decimal) : Option Number := do
  let rank ← scaleByTen (collected.exponent.natAbs + 1)
    (Binary.nearest Binary.double (collected.digits <<< Binary.double.scale) 1)
    collected.exponent
  let x ← (Binary.ofRank Binary.double negative rank).finite?
  return .float x

/-- A zero with a sign. -/
def zeroOf (negative : Bool) : Number :=
  .float ⟨negative, 0, by decide⟩

/-- The integer of a literal with neither point nor exponent, if it is stored
as one. -/
def Literal.integer? (literal : Literal) : Option Number :=
  match literal.fraction, literal.power with
  | [], none =>
    let n := Decimal.valueOf literal.whole
    if literal.negative then
      if n = 0 then none else Number.ofInt? (-(n : Int))
    else Number.ofInt? n
  | _, _ => none

/-- The number of a literal. A failure says how many of the literal's last
digits had not been looked at when it was found to be out of range. -/
def Literal.number (literal : Literal) : Except Nat Number :=
  match literal.integer? with
  | some n => .ok n
  | none =>
    let collected := literal.collected
    match literal.power with
    | none =>
      match floatOf literal.negative collected with
      | some n => .ok n
      | none => .error 0
    | some power =>
      let taken := accumulate greatestPower 0 power.digits
      match taken.2 with
      | _ :: unseen =>
        if collected.digits ≠ 0 ∧ power.negative = false then .error unseen.length
        else .ok (zeroOf literal.negative)
      | [] =>
        match floatOf literal.negative
            { collected with exponent := collected.exponent + power.value } with
        | some n => .ok n
        | none => .error 0

end Settings.Json
