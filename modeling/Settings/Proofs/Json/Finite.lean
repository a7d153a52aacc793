import Settings.Proofs.Json.Layout
import Settings.Proofs.Json.Valuation

/-!
# A written double is never refused

The reader rounds the collected digits and the power of ten separately, so it
may turn the text of a double into a neighbour of that double. It never turns it
into an infinity. For the greatest double this is an evaluation; below it, the
collected magnitude stays under the middle between the two greatest doubles,
and rounding keeps the order, so the largest significand under that middle
decides for each power of ten.
-/

namespace Settings.Json

open Binary (double)

/-- Doubles have a precision. -/
theorem double_precision_pos : 0 < double.precision := by decide

/-- A decimal is not greater than one with more units on the same grid. -/
theorem toRat_le_of_digits {m n : Nat} (h : m ≤ n) (e : ℤ) :
    Decimal.toRat ⟨m, e⟩ ≤ Decimal.toRat ⟨n, e⟩ := by
  have hc : (m : ℚ) ≤ n := by exact_mod_cast h
  exact mul_le_mul_of_nonneg_right hc (by positivity)

/-- A decimal is not greater than one with the same units on a coarser grid. -/
theorem toRat_le_of_exponent (n : Nat) {d e : ℤ} (h : d ≤ e) :
    Decimal.toRat ⟨n, d⟩ ≤ Decimal.toRat ⟨n, e⟩ := by
  have hz : (10 : ℚ) ^ d ≤ (10 : ℚ) ^ e := zpow_le_zpow_right₀ (by norm_num) h
  exact mul_le_mul_of_nonneg_left hz (by positivity)

/-- A decimal other than zero reaches the power of ten of its leading digit. -/
theorem tenTo_order_le {d : Decimal} (h : d.digits ≠ 0) :
    Decimal.toRat ⟨1, d.order⟩ ≤ d.toRat := by
  have hlength : 0 < (Decimal.digitsOf d.digits).length :=
    List.length_pos_iff.mpr (Decimal.digitsOf_ne_nil _)
  have horder : d.order = d.exponent + ((Decimal.digitsOf d.digits).length - 1 : ℕ) := by
    rw [Decimal.order]
    omega
  calc Decimal.toRat ⟨1, d.order⟩
      = Decimal.toRat ⟨Decimal.tenTo ((Decimal.digitsOf d.digits).length - 1), d.exponent⟩ := by
        rw [horder, ← Decimal.toRat_shift, Nat.mul_one]
    _ ≤ d.toRat := toRat_le_of_digits (Decimal.tenTo_le_of_digitsOf h) d.exponent

/-- A decimal does not exceed the power of ten above its leading digit. -/
theorem le_tenTo_order (d : Decimal) : d.toRat ≤ Decimal.toRat ⟨1, d.order + 1⟩ := by
  have hlength : 0 < (Decimal.digitsOf d.digits).length :=
    List.length_pos_iff.mpr (Decimal.digitsOf_ne_nil _)
  have hdigits : d.digits < Decimal.tenTo (Decimal.digitsOf d.digits).length :=
    (Nat.length_toDigits_le_iff (by decide) hlength).mp (Nat.le_refl _)
  have horder : d.exponent + (Decimal.digitsOf d.digits).length = d.order + 1 := by
    rw [Decimal.order]
    omega
  calc d.toRat
      ≤ Decimal.toRat ⟨Decimal.tenTo (Decimal.digitsOf d.digits).length, d.exponent⟩ :=
        toRat_le_of_digits hdigits.le d.exponent
    _ = Decimal.toRat ⟨1, d.order + 1⟩ := by
        rw [← horder, ← Decimal.toRat_shift, Nat.mul_one]

/-- The greater power of ten has the greater rank. -/
theorem tenRank_mono {m n : Nat} (h : m ≤ n) : tenRank m ≤ tenRank n :=
  Decimal.nearestDecimal_mono double double_precision_pos
    (toRat_le_of_exponent 1 (by exact_mod_cast h))

/-- A power of ten is one or more. -/
theorem le_units_tenRank (n : Nat) : 2 ^ double.scale ≤ double.units (tenRank n) := by
  have hone : double.units (tenRank 0) = 2 ^ double.scale := by decide +kernel
  calc 2 ^ double.scale = double.units (tenRank 0) := hone.symm
    _ ≤ double.units (tenRank n) := Binary.units_mono double (tenRank_mono (Nat.zero_le n))

/-! ### Division by powers of ten -/

/-- Scaling by a negative power of ten succeeds and does not raise the rank. -/
theorem scaleByTen_negative {fuel rank : Nat} {e : ℤ} (he : e < 0) (hf : e.natAbs < fuel) :
    ∃ r ≤ rank, scaleByTen fuel rank e = some r := by
  induction fuel generalizing rank e with
  | zero => omega
  | succ fuel ih =>
    have hneg : ¬0 ≤ e := by omega
    have hle (n : Nat) : Binary.quotientRank double rank (tenRank n) ≤ rank :=
      Binary.quotientRank_le double double_precision_pos rank (le_units_tenRank n)
    unfold scaleByTen
    by_cases hs : e.natAbs ≤ 308
    · rw [if_pos hs, if_neg hneg]
      exact ⟨_, hle _, rfl⟩
    · rw [if_neg hs]
      by_cases h0 : rank = 0
      · rw [if_pos h0]
        exact ⟨0, Nat.zero_le _, rfl⟩
      · rw [if_neg h0, if_neg hneg]
        obtain ⟨r, hr, he'⟩ := @ih (Binary.quotientRank double rank (tenRank 308)) (e + 308)
          (by omega) (by omega)
        exact ⟨r, hr.trans (hle _), he'⟩

/-! ### Multiplication by powers of ten -/

/-- The middle between the two greatest doubles. -/
def greatestMiddle : Nat := 2 ^ 1024 - 3 * 2 ^ 970

/-- The greatest significand whose product with a power of ten does not exceed
that middle. -/
def significandBelow (e : Nat) : Nat :=
  min (greatestMiddle / Decimal.tenTo e) greatestSignificand

/-- Whatever exceeds the middle between the two greatest doubles is rounded to
the greatest one or beyond. -/
theorem le_nearestDecimal_of_middle {d : Decimal} (h : (greatestMiddle + 1 : ℚ) ≤ d.toRat) :
    double.infinityRank - 1 ≤ Binary.nearestDecimal double d := by
  have hmiddle :
      Binary.nearestDecimal double ⟨greatestMiddle + 1, 0⟩ = double.infinityRank - 1 := by
    decide +kernel
  rw [← hmiddle]
  refine Decimal.nearestDecimal_mono double double_precision_pos ?_
  simpa only [Decimal.toRat, zpow_zero, mul_one, Nat.cast_add, Nat.cast_one] using h

/-- A significand whose product rounds below the greatest double is not above
the bound for its power of ten. -/
theorem le_significandBelow {s e : Nat} (hs : s ≤ greatestSignificand)
    (h : Binary.nearestDecimal double ⟨s, e⟩ + 1 < double.infinityRank) :
    s ≤ significandBelow e := by
  refine Nat.le_min.mpr ⟨?_, hs⟩
  rw [Nat.le_div_iff_mul_le (Decimal.tenTo_pos e)]
  by_contra hgt
  have hrat : (greatestMiddle + 1 : ℚ) ≤ Decimal.toRat ⟨s, e⟩ := by
    have hn := Nat.succ_le_of_lt (Nat.not_le.mp hgt)
    generalize greatestMiddle = middle at hn ⊢
    have hq : (middle + 1 : ℚ) ≤ s * Decimal.tenTo e := by exact_mod_cast hn
    rwa [Decimal.cast_tenTo] at hq
  have := le_nearestDecimal_of_middle hrat
  omega

/-- The product with the greatest allowed significand is finite. -/
theorem productRank_significandBelow {e : Nat} (h : e ≤ 308) :
    Binary.productRank double
        (Binary.nearest double (significandBelow e <<< double.scale) 1) (tenRank e) <
      double.infinityRank := by
  rcases Nat.lt_or_ge e 289 with hsmall | hlarge
  · have hbound : Binary.productRank double
        (Binary.nearest double (greatestSignificand <<< double.scale) 1) (tenRank 288) <
          double.infinityRank := by decide +kernel
    refine Nat.lt_of_le_of_lt ?_ hbound
    refine Binary.productRank_mono double double_precision_pos ?_ (tenRank_mono (by omega))
    refine Binary.nearest_mono double double_precision_pos Nat.one_pos Nat.one_pos ?_
    rw [Nat.mul_one, Nat.mul_one, Nat.shiftLeft_eq, Nat.shiftLeft_eq]
    exact Nat.mul_le_mul_right _ (Nat.min_le_right _ _)
  · have hall : ∀ k < 20, Binary.productRank double
        (Binary.nearest double (significandBelow (289 + k) <<< double.scale) 1)
          (tenRank (289 + k)) < double.infinityRank := by decide +kernel
    have hk := hall (e - 289) (by omega)
    rwa [Nat.add_sub_cancel' hlarge] at hk

/-- Scaling by a power of ten below the greatest double gives a finite rank. -/
theorem scaleByTen_finite {s : Nat} {e : ℤ} (hs : s ≤ greatestSignificand)
    (h : Binary.nearestDecimal double ⟨s, e⟩ + 1 < double.infinityRank) :
    ∃ r < double.infinityRank, scaleByTen (e.natAbs + 1)
      (Binary.nearest double (s <<< double.scale) 1) e = some r := by
  have hmono {m n : Nat} (hmn : m ≤ n) : Binary.nearest double (m <<< double.scale) 1 ≤
      Binary.nearest double (n <<< double.scale) 1 := by
    refine Binary.nearest_mono double double_precision_pos Nat.one_pos Nat.one_pos ?_
    rw [Nat.mul_one, Nat.mul_one, Nat.shiftLeft_eq, Nat.shiftLeft_eq]
    exact Nat.mul_le_mul_right _ hmn
  rcases Int.lt_or_le e 0 with hneg | hpos
  · have hdivided : ∃ r ≤ Binary.nearest double (s <<< double.scale) 1,
        scaleByTen (e.natAbs + 1) (Binary.nearest double (s <<< double.scale) 1) e = some r :=
      scaleByTen_negative hneg (by omega)
    obtain ⟨r, hr, he⟩ := hdivided
    have hgreatest : Binary.nearest double (greatestSignificand <<< double.scale) 1 <
        double.infinityRank := by decide +kernel
    exact ⟨r, Nat.lt_of_le_of_lt (hr.trans (hmono hs)) hgreatest, he⟩
  · obtain ⟨n, rfl⟩ := Int.eq_ofNat_of_zero_le hpos
    rw [Int.natAbs_natCast]
    unfold scaleByTen
    rw [Int.natAbs_natCast]
    by_cases hn : n ≤ 308
    · rw [if_pos hn, if_pos hpos]
      refine ⟨_, Nat.lt_of_le_of_lt ?_ (productRank_significandBelow hn), rfl⟩
      exact Binary.productRank_mono double double_precision_pos
        (hmono (le_significandBelow hs h)) (Nat.le_refl _)
    · -- a positive significand with so great an exponent would exceed the middle
      have hzero : s = 0 := by
        by_contra hne
        have h309 : double.infinityRank ≤ Binary.nearestDecimal double ⟨1, 309⟩ := by
          decide +kernel
        have hle : Binary.nearestDecimal double ⟨1, 309⟩ ≤
            Binary.nearestDecimal double ⟨s, n⟩ := by
          refine Decimal.nearestDecimal_mono double double_precision_pos ?_
          calc Decimal.toRat ⟨1, 309⟩ ≤ Decimal.toRat ⟨1, n⟩ :=
                toRat_le_of_exponent 1 (by exact_mod_cast Nat.not_le.mp hn)
            _ ≤ Decimal.toRat ⟨s, n⟩ := toRat_le_of_digits (Nat.one_le_iff_ne_zero.mpr hne) _
        have hlt : Binary.nearestDecimal double ⟨s, n⟩ < double.infinityRank := by omega
        exact absurd (h309.trans hle) (Nat.not_le.mpr hlt)
      have hrank : Binary.nearest double (s <<< double.scale) 1 = 0 := by
        rw [hzero]
        decide +kernel
      rw [if_neg hn, if_pos hrank]
      exact ⟨0, by decide, rfl⟩

/-- A finite scaled rank is a double. -/
theorem floatOf_of_scale (negative : Bool) {d : Decimal} {r : Nat} (hr : r < double.infinityRank)
    (h : scaleByTen (d.exponent.natAbs + 1) (Binary.nearest double (d.digits <<< double.scale) 1)
      d.exponent = some r) :
    floatOf negative d = some (.float ⟨negative, r, hr⟩) := by
  unfold floatOf
  rw [h]
  simp only [bind, Option.bind, Binary.ofRank, hr, dite_true, Binary.finite?]
  rfl

/-! ### The text of a double -/

/-- The literal as which a double is stored. -/
def storedLiteral (x : Binary.Finite double) : Literal :=
  Binary.storedDouble.literal x.negative (Binary.shortest double x.rank)

/-- A double is stored as its literal. -/
theorem storedLiteral_text (x : Binary.Finite double) : (storedLiteral x).text = x.storedText := by
  rw [storedLiteral, Decimal.literal_text_layout, Binary.Finite.storedText, Binary.Finite.textIn]
  cases x.negative <;> rfl

/-- Rounding no units gives the least rank. -/
theorem nearestDecimal_zero (e : ℤ) : Binary.nearestDecimal double ⟨0, e⟩ = 0 := by
  have h0 : Binary.nearestDecimal double ⟨0, 0⟩ = 0 := by decide +kernel
  refine Nat.le_zero.mp (Nat.le_trans ?_ h0.le)
  refine Decimal.nearestDecimal_mono double double_precision_pos ?_
  simp only [Decimal.toRat, Nat.cast_zero, zero_mul, le_refl]

/-- The shortest decimal of a double is no shifted zero. -/
theorem shortest_exponent_of_zero {rank : Nat}
    (h : (Binary.shortest double rank).digits = 0) :
    (Binary.shortest double rank).exponent = 0 := by
  have hrank : rank = 0 := by
    rw [← Binary.nearestDecimal_shortest double double_precision_pos rank]
    have hd : Binary.shortest double rank = ⟨0, (Binary.shortest double rank).exponent⟩ := by
      rw [← h]
    rw [hd]
    exact nearestDecimal_zero _
  rw [hrank]
  rfl

/-- The literal of a double keeps to the grammar. -/
theorem storedLiteral_proper (x : Binary.Finite double) : (storedLiteral x).Proper :=
  Decimal.literal_proper _ _ shortest_exponent_of_zero

/-- The literal of a double is not taken for an integer. -/
theorem storedLiteral_integer (x : Binary.Finite double) : (storedLiteral x).integer? = none := by
  unfold storedLiteral Decimal.Layout.literal
  split
  · unfold Decimal.Layout.positionalLiteral
    dsimp only
    split
    · cases hz : Decimal.zeros (-(Binary.shortest double x.rank).order - 1).toNat ++
          Decimal.digitsOf (Binary.shortest double x.rank).digits with
      | nil => exact absurd hz (List.append_ne_nil_of_right_ne_nil _ (Decimal.digitsOf_ne_nil _))
      | cons c cs => rfl
    · split
      · rfl
      · next hlen =>
        cases hd : (Decimal.digitsOf (Binary.shortest double x.rank).digits).drop
            ((Binary.shortest double x.rank).order.toNat + 1) with
        | nil => exact absurd (List.drop_eq_nil_iff.mp hd) hlen
        | cons c cs => rfl
  · unfold Decimal.scientificLiteral Literal.integer?
    dsimp only
    split
    · next hp => cases hp
    · rfl

/-- What is collected of a double's text does not exceed the double. -/
theorem nearestDecimal_taken_le (x : Binary.Finite double) :
    Binary.nearestDecimal double (storedLiteral x).taken ≤ x.rank := by
  calc Binary.nearestDecimal double (storedLiteral x).taken
      ≤ Binary.nearestDecimal double (Binary.shortest double x.rank) := by
        refine Decimal.nearestDecimal_mono double double_precision_pos ?_
        refine (taken_le_magnitude _).trans ?_
        rw [storedLiteral, Decimal.literal_magnitude]
    _ = x.rank := Binary.nearestDecimal_shortest double double_precision_pos x.rank

/-- The leading digit of a double stands below the exponent 309. -/
theorem order_shortest_le (x : Binary.Finite double) :
    (Binary.shortest double x.rank).order ≤ 308 := by
  by_cases h0 : (Binary.shortest double x.rank).digits = 0
  · rw [Decimal.order_zero h0, shortest_exponent_of_zero h0]
    decide
  · by_contra hgt
    have h309 : double.infinityRank ≤ Binary.nearestDecimal double ⟨1, 309⟩ := by decide +kernel
    have hle : Binary.nearestDecimal double ⟨1, 309⟩ ≤ x.rank := by
      rw [← Binary.nearestDecimal_shortest double double_precision_pos x.rank]
      refine Decimal.nearestDecimal_mono double double_precision_pos ?_
      have horder : (309 : ℤ) ≤ (Binary.shortest double x.rank).order := by omega
      exact (toRat_le_of_exponent 1 horder).trans (tenTo_order_le h0)
    have := x.rank_lt
    omega

/-- Only a written exponent below zero could be cut short. -/
theorem storedLiteral_power (x : Binary.Finite double) {power : Power}
    (hp : (storedLiteral x).power = some power) :
    power.negative = true ∨ (accumulate greatestPower 0 power.digits).2 = [] := by
  have horder := order_shortest_le x
  unfold storedLiteral Decimal.Layout.literal at hp
  split at hp
  · unfold Decimal.Layout.positionalLiteral at hp
    dsimp only at hp
    split at hp
    · cases hp
    · split at hp <;> cases hp
  · cases hp
    dsimp only
    by_cases hneg : (Binary.shortest double x.rank).order < 0
    · exact Or.inl (decide_eq_true hneg)
    · refine Or.inr (congrArg Prod.snd (accumulate_all ?_))
      rw [Decimal.valueOf_digitsOf]
      unfold greatestPower
      omega

/-- The collected magnitude of a double's text is scaled to a finite rank. -/
theorem scaleByTen_taken (x : Binary.Finite double) :
    ∃ r < double.infinityRank, scaleByTen ((storedLiteral x).taken.exponent.natAbs + 1)
      (Binary.nearest double ((storedLiteral x).taken.digits <<< double.scale) 1)
      (storedLiteral x).taken.exponent = some r := by
  by_cases htop : x.rank + 1 < double.infinityRank
  · have hle := nearestDecimal_taken_le x
    exact scaleByTen_finite (accumulate_le (accumulate_le (Nat.zero_le _) _) _)
      (Nat.lt_of_le_of_lt (Nat.succ_le_succ hle) htop)
  · -- the greatest double: its text is evaluated for either sign
    have hrank : x.rank = double.infinityRank - 1 := by
      have := x.rank_lt
      omega
    have htaken : ∀ negative, (Binary.storedDouble.literal negative
        (Binary.shortest double (double.infinityRank - 1))).taken = ⟨17976931348623157, 292⟩ := by
      decide +kernel
    have hscale : scaleByTen 293 (Binary.nearest double (17976931348623157 <<< double.scale) 1)
        292 = some (double.infinityRank - 1) := by decide +kernel
    refine ⟨double.infinityRank - 1, by decide, ?_⟩
    rw [storedLiteral, hrank, htaken]
    exact hscale

/-- The text of a double is read as a double, with the same sign. -/
theorem storedLiteral_number (x : Binary.Finite double) :
    ∃ y : Binary.Finite double, (storedLiteral x).number = .ok (.float y) ∧
      y.negative = x.negative := by
  obtain ⟨r, hr, hscale⟩ := scaleByTen_taken x
  have hsign : (storedLiteral x).negative = x.negative := by
    unfold storedLiteral Decimal.Layout.literal Decimal.Layout.positionalLiteral
    dsimp only
    split
    · split
      · rfl
      · split <;> rfl
    · rfl
  have hfloat := floatOf_of_scale (storedLiteral x).negative hr hscale
  unfold Literal.taken at hfloat
  unfold Literal.number
  rw [storedLiteral_integer]
  dsimp only
  cases hp : (storedLiteral x).power with
  | none =>
    rw [hp] at hfloat
    simp only [Option.map_none, Option.getD_none, Int.add_zero] at hfloat
    rw [hfloat]
    exact ⟨_, rfl, hsign⟩
  | some power =>
    rw [hp] at hfloat
    simp only [Option.map_some, Option.getD_some] at hfloat
    dsimp only
    cases hrest : (accumulate greatestPower 0 power.digits).2 with
    | nil =>
      dsimp only
      rw [hfloat]
      exact ⟨_, rfl, hsign⟩
    | cons c unseen =>
      have hneg : power.negative = true := by
        rcases storedLiteral_power x hp with h | h
        · exact h
        · rw [hrest] at h
          cases h
      dsimp only
      rw [if_neg (by rw [hneg]; simp)]
      exact ⟨_, rfl, hsign⟩

end Settings.Json
