import Settings.Proofs.Binary.Integers

/-!
# Integers that a format has

A format has every integer with no more bits than its precision: the integer is shifted up to
a full significand, and the exponent takes the shift back. Rounding such an integer is exact,
so no two of them are rounded to one rank.
-/

namespace Settings.Binary

/-- Every integer below two to the precision is the exact value of a rank. -/
theorem exists_units_eq (F : Format) (hp : 0 < F.precision) (hs : F.precision - 1 ≤ F.scale)
    {n : Nat} (hn : n < 2 ^ F.precision) : ∃ rank, F.units rank = n * 2 ^ F.scale := by
  by_cases h0 : n = 0
  · exact ⟨0, by simp only [h0, Format.units, Nat.zero_div, if_true, Nat.zero_mul]⟩
  have hl : F.leading = 2 ^ (F.precision - 1) := leading_eq F
  have hpos : 0 < F.leading := hl ▸ Nat.two_pow_pos _
  have hlog : n.log2 < F.precision := (Nat.log2_lt h0).mpr hn
  -- the significand: the integer shifted up until its leading bit is that of the format
  have hsum : n.log2 + (F.precision - 1 - n.log2) = F.precision - 1 := by omega
  have hlow : F.leading ≤ n * 2 ^ (F.precision - 1 - n.log2) := by
    have hpower : 2 ^ n.log2 ≤ n := Nat.log2_self_le h0
    calc F.leading = 2 ^ n.log2 * 2 ^ (F.precision - 1 - n.log2) := by
          rw [hl, ← Nat.pow_add, hsum]
      _ ≤ n * 2 ^ (F.precision - 1 - n.log2) := Nat.mul_le_mul_right _ hpower
  have hhigh : n * 2 ^ (F.precision - 1 - n.log2) < 2 * F.leading := by
    have hpower : n < 2 ^ (n.log2 + 1) := Nat.lt_log2_self
    calc n * 2 ^ (F.precision - 1 - n.log2)
        < 2 ^ (n.log2 + 1) * 2 ^ (F.precision - 1 - n.log2) :=
          Nat.mul_lt_mul_of_pos_right hpower (Nat.two_pow_pos _)
      _ = 2 * F.leading := by
          rw [hl, ← Nat.pow_add, Nat.add_right_comm, hsum, Nat.pow_succ, Nat.mul_comm]
  have hexact : n * 2 ^ (F.precision - 1 - n.log2) *
      2 ^ (F.scale - (F.precision - 1 - n.log2)) = n * 2 ^ F.scale := by
    rw [Nat.mul_assoc, ← Nat.pow_add, Nat.add_sub_cancel' (by omega)]
  generalize n * 2 ^ (F.precision - 1 - n.log2) = significand at hlow hhigh hexact
  generalize F.scale - (F.precision - 1 - n.log2) = shift at hexact
  refine ⟨F.leading * (shift + 1) + (significand - F.leading), ?_⟩
  have hrest : significand - F.leading < F.leading := by omega
  have hdiv : (F.leading * (shift + 1) + (significand - F.leading)) / F.leading = shift + 1 := by
    rw [Nat.mul_add_div hpos, Nat.div_eq_of_lt hrest, Nat.add_zero]
  have hmod : (F.leading * (shift + 1) + (significand - F.leading)) % F.leading =
      significand - F.leading := by
    rw [Nat.mul_add_mod, Nat.mod_eq_of_lt hrest]
  have hfull : F.leading + (significand - F.leading) = significand := by omega
  simp only [Format.units, hdiv, hmod, hfull, Nat.add_one_ne_zero, if_false, Nat.add_sub_cancel,
    Nat.shiftLeft_eq, hexact]

/-- A safe integer is rounded to a rank that has its exact value. -/
theorem units_nearestDecimal {n : Nat} (h : n ≤ greatestSafe) :
    double.units (nearestDecimal double ⟨n, 0⟩) = n * 2 ^ double.scale := by
  have hn : n < 2 ^ double.precision := Nat.lt_of_le_of_lt h (by decide)
  obtain ⟨rank, hunits⟩ := exists_units_eq double (by decide) (by decide) hn
  have hone : Decimal.tenTo 0 = 1 := rfl
  have hrank : nearestDecimal double ⟨n, 0⟩ = rank := by
    have hback := nearest_units double (by decide) rank
    rw [hunits] at hback
    simpa only [nearestDecimal, Int.neg_zero, Int.toNat_zero, hone, Nat.mul_one,
      Nat.shiftLeft_eq] using hback
  rw [hrank, hunits]

/-- No two safe integers are rounded to one rank. -/
theorem nearestDecimal_inj {m n : Nat} (hm : m ≤ greatestSafe) (hn : n ≤ greatestSafe)
    (h : nearestDecimal double ⟨m, 0⟩ = nearestDecimal double ⟨n, 0⟩) : m = n := by
  have hunits : m * 2 ^ double.scale = n * 2 ^ double.scale := by
    rw [← units_nearestDecimal hm, h, units_nearestDecimal hn]
  exact Nat.eq_of_mul_eq_mul_right (Nat.two_pow_pos _) hunits

end Settings.Binary
