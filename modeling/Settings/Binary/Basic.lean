/-!
# Binary floating-point numbers

A format has a precision and a width of the exponent field. Its finite
magnitudes, in ascending order, are numbered from zero; the number of a
magnitude is its rank. Every finite magnitude is a natural multiple of the
least positive one, so its exact value is a natural number of such units and
no rounding hides in the type. The two zeros are distinct, NaN has one form.
-/

namespace Settings

namespace Binary

/-- A binary interchange format. -/
structure Format where
  /-- Bits of the significand, the leading one included. -/
  precision : Nat
  /-- Bits of the exponent field. -/
  exponentBits : Nat

/-- The format of 32 bits. -/
def single : Format := ⟨24, 8⟩

/-- The format of 64 bits. -/
def double : Format := ⟨53, 11⟩

/-- The weight of the leading bit, which is the number of magnitudes that
share one exponent. -/
def Format.leading (F : Format) : Nat :=
  1 <<< (F.precision - 1)

/-- The least positive magnitude is two to the minus `scale`. -/
def Format.scale (F : Format) : Nat :=
  (1 <<< (F.exponentBits - 1)) + F.precision - 3

/-- The rank that would follow the greatest finite magnitude. -/
def Format.infinityRank (F : Format) : Nat :=
  ((1 <<< F.exponentBits) - 1) * F.leading

/-- The exact value of a rank, in units of the least positive magnitude. -/
def Format.units (F : Format) (rank : Nat) : Nat :=
  if rank / F.leading = 0 then rank
  else (F.leading + rank % F.leading) <<< (rank / F.leading - 1)

end Binary

/-- A finite number: a sign and the rank of its magnitude. -/
structure Binary.Finite (F : Binary.Format) where
  /-- Whether the sign is minus; zero has both signs. -/
  negative : Bool
  /-- The place of the magnitude among all finite ones. -/
  rank : Nat
  /-- The magnitude is finite. -/
  rank_lt : rank < F.infinityRank
deriving DecidableEq

/-- A number of a binary format. -/
inductive Binary (F : Binary.Format) where
  /-- No number. -/
  | nan
  /-- An infinity of either sign. -/
  | infinite (negative : Bool)
  /-- A finite number. -/
  | finite (value : Binary.Finite F)
deriving DecidableEq

namespace Binary

variable {F : Format}

/-- The exact magnitude of a finite number, in units of the least one. -/
def Finite.units (x : Finite F) : Nat :=
  F.units x.rank

/-- A sign and a rank that may lie beyond the finite ones. -/
def ofRank (F : Format) (negative : Bool) (rank : Nat) : Binary F :=
  if h : rank < F.infinityRank then .finite ⟨negative, rank, h⟩ else .infinite negative

/-- The finite number of a binary number, if it is one. -/
def finite? : Binary F → Option (Finite F)
  | .finite x => some x
  | _ => none

/-- Equality of numbers: NaN differs from itself and the zeros are equal. -/
def same : Binary F → Binary F → Bool
  | .infinite a, .infinite b => a == b
  | .finite x, .finite y =>
    decide (x.rank = y.rank) && (x.negative == y.negative || decide (x.rank = 0))
  | _, _ => false

end Binary

end Settings
