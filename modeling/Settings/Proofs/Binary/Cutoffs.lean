import Settings.Proofs.Json.Injective
import Settings.Proofs.Json.Plain

/-!
# Decimals that are decided by their order

A decimal whose leading digit stands far enough from the point is not rounded: it is zero or an
infinity by its order alone. Rounding it would give the same, so the cut-offs save work and
decide nothing. Hence an integer of the stored range becomes the nearest double, and the text of
a double becomes that double again.
-/

namespace Settings

open Binary (double nearestDecimal ofDecimal ofRank)

namespace Binary

/-- A decimal that is decided by its order is rounded to the same. -/
theorem ofDecimal_eq (negative : Bool) (d : Decimal) :
    ofDecimal double negative d = ofRank double negative (nearestDecimal double d) := by
  have hscale : double.scale = 1074 := by decide
  rw [ofDecimal, hscale]
  split
  · next hsmall =>
    have hrank : nearestDecimal double d = 0 := by
      rcases hsmall with hzero | hlow
      · obtain ⟨digits, exponent⟩ := d
        cases hzero
        exact Json.nearestDecimal_zero exponent
      · -- the decimal is at most the greatest power of ten that is rounded to zero
        have hleast : nearestDecimal double ⟨1, -1075⟩ = 0 := by decide +kernel
        refine Nat.le_zero.mp (Nat.le_trans ?_ hleast.le)
        refine Decimal.nearestDecimal_mono double Json.double_precision_pos ?_
        exact (Json.le_tenTo_order d).trans (Json.toRat_le_of_exponent 1 (by omega))
    rw [hrank]
  · next hsmall =>
    split
    · next hlarge =>
      have hbeyond : double.infinityRank ≤ nearestDecimal double ⟨1, 1075⟩ := by decide +kernel
      have hreached : nearestDecimal double ⟨1, 1075⟩ ≤ nearestDecimal double d := by
        refine Decimal.nearestDecimal_mono double Json.double_precision_pos ?_
        have horder : (1075 : ℤ) ≤ d.order := by omega
        exact (Json.toRat_le_of_exponent 1 horder).trans
          (Json.tenTo_order_le fun hzero => hsmall (.inl hzero))
      rw [ofRank, dif_neg (by omega)]
    · rfl

end Binary

namespace Json

/-- An integer of the stored range is handed to a script as the double nearest to it. -/
theorem toDouble_of_stored {n : Int} (h : leastInteger ≤ n ∧ n ≤ greatestInteger) :
    ∃ x : Binary.Finite double, (integerLiteral n).toDouble = .finite x ∧
      x.negative = decide (n < 0) ∧ x.rank = nearestDecimal double ⟨n.natAbs, 0⟩ := by
  have hfinite : nearestDecimal double ⟨n.natAbs, 0⟩ < double.infinityRank := by
    have hgreatest : nearestDecimal double ⟨18446744073709551615, 0⟩ < double.infinityRank := by
      decide +kernel
    refine Nat.lt_of_le_of_lt ?_ hgreatest
    have hle : n.natAbs ≤ 18446744073709551615 := by
      unfold leastInteger greatestInteger at h
      omega
    exact Decimal.nearestDecimal_mono double double_precision_pos (toRat_le_of_digits hle 0)
  refine ⟨⟨decide (n < 0), nearestDecimal double ⟨n.natAbs, 0⟩, hfinite⟩, ?_, rfl, rfl⟩
  rw [toDouble_integerLiteral, Binary.ofDecimal_eq, ofRank, dif_pos hfinite]

/-- A double is handed to a script as it is. -/
theorem toDouble_storedLiteral (x : Binary.Finite double) :
    (storedLiteral x).toDouble = .finite x := by
  rw [Literal.toDouble, Binary.ofDecimal_eq, nearestDecimal_storedLiteral, storedLiteral_negative,
    ofRank, dif_pos x.rank_lt]

end Json

end Settings
