import Mathlib.Tactic.Linarith
import Mathlib.Tactic.Positivity
import Mathlib.Tactic.Ring
import Mathlib.Algebra.Order.Field.Rat
import Mathlib.Algebra.Order.Field.Power
import Settings.Proofs.Binary.Order

/-!
# The exact magnitude of a decimal

Two decimals on different grids are compared by the rational numbers that they
denote. Rounding a decimal to a binary format keeps that comparison, so what a
text denotes exactly bounds what it is read as.
-/

namespace Settings.Decimal

/-- The rational number of a decimal. -/
def toRat (d : Decimal) : ℚ :=
  d.digits * (10 : ℚ) ^ d.exponent

/-- A power of ten as a rational number. -/
theorem cast_tenTo (n : Nat) : (tenTo n : ℚ) = (10 : ℚ) ^ (n : ℤ) := by
  rw [zpow_natCast]
  exact Nat.cast_pow 10 n

/-- A decimal over the denominator that its rounding uses. -/
theorem toRat_mul_tenTo (d : Decimal) :
    d.toRat * (tenTo (-d.exponent).toNat : ℚ) = (d.digits * tenTo d.exponent.toNat : ℚ) := by
  have hten : (10 : ℚ) ≠ 0 := by norm_num
  rw [toRat, cast_tenTo, cast_tenTo, mul_assoc, ← zpow_add₀ hten]
  congr 2
  omega

/-- A decimal that is not greater is not rounded to a greater rank. -/
theorem nearestDecimal_mono (F : Binary.Format) (hp : 0 < F.precision) {a b : Decimal}
    (h : a.toRat ≤ b.toRat) : Binary.nearestDecimal F a ≤ Binary.nearestDecimal F b := by
  have ha := toRat_mul_tenTo a
  have hb := toRat_mul_tenTo b
  have hpos (n : Nat) : (0 : ℚ) < (tenTo n : ℚ) := by exact_mod_cast tenTo_pos n
  have hcross : (a.digits * tenTo a.exponent.toNat * tenTo (-b.exponent).toNat : ℚ) ≤
      (b.digits * tenTo b.exponent.toNat * tenTo (-a.exponent).toNat : ℚ) := by
    rw [← ha, ← hb]
    calc a.toRat * tenTo (-a.exponent).toNat * tenTo (-b.exponent).toNat
        = a.toRat * (tenTo (-a.exponent).toNat * tenTo (-b.exponent).toNat) := mul_assoc _ _ _
      _ ≤ b.toRat * (tenTo (-a.exponent).toNat * tenTo (-b.exponent).toNat) :=
        mul_le_mul_of_nonneg_right h (mul_pos (hpos _) (hpos _)).le
      _ = b.toRat * tenTo (-b.exponent).toNat * tenTo (-a.exponent).toNat := by ring
  have hnat : a.digits * tenTo a.exponent.toNat * tenTo (-b.exponent).toNat ≤
      b.digits * tenTo b.exponent.toNat * tenTo (-a.exponent).toNat := by exact_mod_cast hcross
  refine Binary.nearest_mono F hp (tenTo_pos _) (tenTo_pos _) ?_
  simp only [Nat.shiftLeft_eq]
  calc a.digits * tenTo a.exponent.toNat * 2 ^ F.scale * tenTo (-b.exponent).toNat
      = a.digits * tenTo a.exponent.toNat * tenTo (-b.exponent).toNat * 2 ^ F.scale :=
        Nat.mul_right_comm _ _ _
    _ ≤ b.digits * tenTo b.exponent.toNat * tenTo (-a.exponent).toNat * 2 ^ F.scale :=
        Nat.mul_le_mul_right _ hnat
    _ = b.digits * tenTo b.exponent.toNat * 2 ^ F.scale * tenTo (-a.exponent).toNat :=
        Nat.mul_right_comm _ _ _

end Settings.Decimal
