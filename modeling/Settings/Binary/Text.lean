import Settings.Binary.Shortest
import Settings.Decimal.Layout

/-!
# Numbers in stored text and in script text

The digits of a number are the shortest that read back; three layouts say how
they are written. Stored text marks a number as a float by its point or
exponent and keeps the sign of zero. Script text writes integers without a
point and both zeros alike.
-/

namespace Settings.Binary

/-- Stored doubles are positional from `0.00001` below `1e+16`. -/
def storedDouble : Decimal.Layout := ⟨-5, 15, true⟩

/-- Stored singles are positional from `0.000001` below `1e+13`. -/
def storedSingle : Decimal.Layout := ⟨-6, 12, true⟩

/-- Script numbers are positional from `0.000001` below `1e+21`. -/
def scriptNumber : Decimal.Layout := ⟨-6, 20, false⟩

/-- A finite number with its sign, in a given layout. -/
def Finite.textIn {F : Format} (layout : Decimal.Layout) (x : Finite F) : List Char :=
  let magnitude := layout.text (shortest F x.rank)
  if x.negative then '-' :: magnitude else magnitude

/-- The stored text of a double. -/
def Finite.storedText (x : Finite double) : List Char :=
  x.textIn storedDouble

/-- The text a script makes of a number, where zero has no sign. -/
def scriptText : Binary double → List Char
  | .nan => "NaN".toList
  | .infinite true => "-Infinity".toList
  | .infinite false => "Infinity".toList
  | .finite x => if x.rank = 0 then ['0'] else x.textIn scriptNumber

end Settings.Binary
