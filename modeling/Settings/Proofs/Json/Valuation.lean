import Settings.Json.Valuation
import Settings.Proofs.Decimal.Magnitude
import Settings.Proofs.Json.Literal

/-!
# What the collected digits say of a literal

Digits are collected as long as the significand holds them. An integer that is
stored as one is collected whole and read back as itself. Of any other literal
the collected magnitude never exceeds the exact one: a digit that no longer fits
raises the exponent or is dropped, and after a digit before the point was left
over, a digit after it can fit only if it is smaller than the one left over.
-/

namespace Settings.Json

open Decimal (valueOf tenTo digitsOf)

/-! ### Collecting digits -/

/-- What was collected is the value of the digits taken, and the first digit
left over did not fit. -/
theorem accumulate_spec (limit n : Nat) (ds : List Char) :
    ∃ taken, ds = taken ++ (accumulate limit n ds).2 ∧
      (accumulate limit n ds).1 = tenTo taken.length * n + valueOf taken ∧
      ∀ c ∈ (accumulate limit n ds).2.head?,
        limit < 10 * (accumulate limit n ds).1 + Decimal.digitValue c := by
  induction ds generalizing n with
  | nil =>
    refine ⟨[], rfl, ?_, fun c hc => by cases hc⟩
    simp only [accumulate, List.length_nil, Decimal.valueOf_nil, tenTo, Nat.pow_eq, Nat.pow_zero,
      Nat.one_mul, Nat.add_zero]
  | cons d ds ih =>
    unfold accumulate
    split
    · obtain ⟨taken, h1, h2, h3⟩ := ih (10 * n + Decimal.digitValue d)
      refine ⟨d :: taken, congrArg _ h1, ?_, h3⟩
      rw [h2, Decimal.valueOf_cons, List.length_cons, Decimal.tenTo_add]
      have h10 : tenTo 1 = 10 := rfl
      rw [h10]
      ring
    · next h =>
      refine ⟨[], rfl, ?_, ?_⟩
      · simp only [List.length_nil, Decimal.valueOf_nil, tenTo, Nat.pow_eq, Nat.pow_zero,
          Nat.one_mul, Nat.add_zero]
      · intro c hc
        cases hc
        exact Nat.not_le.mp h

/-- Nothing beyond the limit is collected. -/
theorem accumulate_le {limit n : Nat} (h : n ≤ limit) (ds : List Char) :
    (accumulate limit n ds).1 ≤ limit := by
  induction ds generalizing n with
  | nil => exact h
  | cons d ds ih =>
    unfold accumulate
    split
    · next hd => exact ih hd
    · exact h

/-- Digits whose value is within the limit are all collected. -/
theorem accumulate_all {limit : Nat} {ds : List Char} (h : valueOf ds ≤ limit) :
    accumulate limit 0 ds = (valueOf ds, []) := by
  obtain ⟨taken, h1, h2, h3⟩ := accumulate_spec limit 0 ds
  have hrest : (accumulate limit 0 ds).2 = [] := by
    cases hr : (accumulate limit 0 ds).2 with
    | nil => rfl
    | cons c rest =>
      have hc := h3 c (by rw [hr]; rfl)
      rw [hr] at h1
      have hv := congrArg valueOf h1
      rw [Decimal.valueOf_append, Decimal.valueOf_cons, List.length_cons, Decimal.tenTo_add] at hv
      have h10 : tenTo 1 = 10 := rfl
      have hpos := Decimal.tenTo_pos rest.length
      rw [Nat.mul_zero, Nat.zero_add] at h2
      rw [h2] at hc
      rw [h10] at hv
      nlinarith
  rw [hrest, List.append_nil] at h1
  rw [Nat.mul_zero, Nat.zero_add, ← h1] at h2
  exact Prod.ext h2 hrest

/-! ### Integers -/

/-- The literal of an integer. -/
def integerLiteral (n : Int) : Literal :=
  ⟨decide (n < 0), digitsOf n.natAbs, [], none⟩

/-- An integer is written as its literal. -/
theorem integerLiteral_text (n : Int) : (integerLiteral n).text = Decimal.integerText n := by
  unfold integerLiteral Literal.text Decimal.integerText
  by_cases h : n < 0 <;> simp [h, fractionText, powerText]

/-- The literal of an integer keeps to the grammar. -/
theorem integerLiteral_proper (n : Int) : (integerLiteral n).Proper := by
  refine ⟨Decimal.digitsOf_ne_nil _, fun c hc => Decimal.isDigit_of_mem_digitsOf hc, ?_, ?_, ?_, ?_⟩
  · intro h
    by_cases h0 : n.natAbs = 0
    · rw [integerLiteral, h0, Decimal.digitsOf_zero]
    · exact absurd h (Decimal.head_digitsOf_ne h0)
  · intro c hc
    cases hc
  · intro p hp
    cases hp
  · intro p hp
    cases hp

/-- Whether the literal of an integer is stored as one is a matter of its range alone. -/
theorem integerLiteral_integer? (n : Int) : (integerLiteral n).integer? = Number.ofInt? n := by
  unfold Literal.integer? integerLiteral
  dsimp only
  rw [Decimal.valueOf_digitsOf]
  by_cases hneg : n < 0
  · have hn : n.natAbs ≠ 0 := by omega
    have hv : -(n.natAbs : Int) = n := by omega
    rw [decide_eq_true hneg, if_pos rfl, if_neg hn, hv]
  · have hv : (n.natAbs : Int) = n := by omega
    rw [decide_eq_false hneg, if_neg Bool.false_ne_true, hv]

/-- An integer of the stored range is valued as itself. -/
theorem integerLiteral_number (n : Int) (h : leastInteger ≤ n ∧ n ≤ greatestInteger) :
    (integerLiteral n).number = .ok (.integer n h) := by
  unfold Literal.number
  rw [integerLiteral_integer?, Number.ofInt?, dif_pos h]

/-- What is computed from a magnitude is a double. -/
theorem floatOf_float {negative : Bool} {collected : Decimal} {m : Number}
    (h : floatOf negative collected = some m) : ∃ x, m = .float x := by
  obtain ⟨rank, -, hrank⟩ := Option.bind_eq_some_iff.mp h
  obtain ⟨x, -, hx⟩ := Option.bind_eq_some_iff.mp hrank
  cases hx
  exact ⟨x, rfl⟩

/-- A literal that is not stored as an integer is valued as a double, if it is valued. -/
theorem Literal.number_float {l : Literal} (hint : l.integer? = none) {m : Number}
    (h : l.number = .ok m) : ∃ x, m = .float x := by
  unfold Literal.number at h
  rw [hint] at h
  dsimp only at h
  split at h
  · split at h
    · next hfloat => cases h; exact floatOf_float hfloat
    · cases h
  · split at h
    · split at h
      · cases h
      · cases h; exact ⟨_, rfl⟩
    · split at h
      · next hfloat => cases h; exact floatOf_float hfloat
      · cases h

/-! ### Collected and exact magnitude -/

/-- A digit that is left over before the point outweighs every digit that is
taken after it. -/
theorem leftOver_outweighs {k m c : Nat} (hk : k ≤ 10 * m + c) (w t f : Nat) :
    k * (tenTo w * 10 * tenTo f) ≤
      tenTo t * (10 * tenTo f * (tenTo w * 10 * m + tenTo w * c)) := by
  have hpos := Decimal.tenTo_pos t
  calc k * (tenTo w * 10 * tenTo f)
      ≤ (10 * m + c) * (tenTo w * 10 * tenTo f) := Nat.mul_le_mul_right _ hk
    _ = 1 * (10 * tenTo f * (tenTo w * 10 * m + tenTo w * c)) := by ring
    _ ≤ tenTo t * (10 * tenTo f * (tenTo w * 10 * m + tenTo w * c)) :=
        Nat.mul_le_mul_right _ hpos

/-- What is collected, moved up by the digits left over, does not exceed the
value of all digits. -/
theorem collected_digits_le (whole fraction : List Char) :
    (accumulate greatestSignificand (accumulate greatestSignificand 0 whole).1 fraction).1 *
        tenTo ((accumulate greatestSignificand 0 whole).2.length +
          (accumulate greatestSignificand (accumulate greatestSignificand 0 whole).1
            fraction).2.length) ≤
      valueOf (whole ++ fraction) := by
  obtain ⟨tw, hw1, hw2, hw3⟩ := accumulate_spec greatestSignificand 0 whole
  have hm1 := accumulate_le (Nat.zero_le greatestSignificand) whole
  obtain ⟨tf, hf1, hf2, -⟩ :=
    accumulate_spec greatestSignificand (accumulate greatestSignificand 0 whole).1 fraction
  have hm2 := accumulate_le hm1 fraction
  generalize (accumulate greatestSignificand 0 whole).1 = m at *
  generalize (accumulate greatestSignificand 0 whole).2 = w at *
  generalize (accumulate greatestSignificand m fraction).1 = k at *
  generalize (accumulate greatestSignificand m fraction).2 = f at *
  rw [Nat.mul_zero, Nat.zero_add] at hw2
  have hall : valueOf (whole ++ fraction) =
      tenTo (tf.length + f.length) * (tenTo w.length * m + valueOf w) +
        (tenTo f.length * valueOf tf + valueOf f) := by
    rw [Decimal.valueOf_append, hw1, hf1, Decimal.valueOf_append, Decimal.valueOf_append,
      List.length_append, ← hw2]
  rw [hall, Decimal.tenTo_add, Decimal.tenTo_add]
  cases w with
  | nil =>
    have h1 : tenTo 0 = 1 := rfl
    simp only [List.length_nil, Decimal.valueOf_nil, h1, Nat.one_mul, Nat.add_zero]
    rw [hf2]
    nlinarith [Nat.zero_le (valueOf f)]
  | cons c w =>
    have hc := hw3 c rfl
    have h10 : tenTo 1 = 10 := rfl
    rw [List.length_cons, Decimal.valueOf_cons, Decimal.tenTo_add, h10]
    cases tf with
    | nil =>
      have h1 : tenTo 0 = 1 := rfl
      simp only [List.length_nil, Decimal.valueOf_nil, h1, Nat.one_mul, Nat.mul_zero,
        Nat.add_zero, Nat.zero_add] at hf2 ⊢
      rw [hf2]
      nlinarith [Nat.zero_le (tenTo f.length * (tenTo w.length * Decimal.digitValue c)),
        Nat.zero_le (tenTo f.length * valueOf w), Nat.zero_le (valueOf f)]
    | cons d tf =>
      have hk : k ≤ 10 * m + Decimal.digitValue c := by omega
      refine (leftOver_outweighs hk w.length tf.length f.length).trans ?_
      rw [List.length_cons, Decimal.tenTo_add, h10]
      nlinarith [Nat.zero_le (tenTo tf.length * 10 * tenTo f.length * valueOf w),
        Nat.zero_le (tenTo f.length * valueOf (d :: tf)), Nat.zero_le (valueOf f)]

/-- The collected magnitude of a literal with its written exponent. -/
def Literal.taken (literal : Literal) : Decimal :=
  { literal.collected with
    exponent := literal.collected.exponent + (literal.power.map Power.value).getD 0 }

/-- The collected magnitude does not exceed the exact one. -/
theorem taken_le_magnitude (literal : Literal) : literal.taken.toRat ≤ literal.magnitude.toRat := by
  have hle := collected_digits_le literal.whole literal.fraction
  have hsub : (accumulate greatestSignificand (accumulate greatestSignificand 0 literal.whole).1
      literal.fraction).2.length ≤ literal.fraction.length := by
    obtain ⟨tf, hf, -⟩ := accumulate_spec greatestSignificand
      (accumulate greatestSignificand 0 literal.whole).1 literal.fraction
    have := congrArg List.length hf
    rw [List.length_append] at this
    omega
  unfold Literal.taken Literal.magnitude Literal.collected
  dsimp only
  generalize (literal.power.map Power.value).getD 0 = p
  generalize accumulate greatestSignificand 0 literal.whole = w at *
  generalize accumulate greatestSignificand w.1 literal.fraction = f at *
  have hten : (10 : ℚ) ≠ 0 := by norm_num
  have hcast : (f.1 : ℚ) * (10 : ℚ) ^ ((w.2.length + f.2.length : ℕ) : ℤ) ≤
      (valueOf (literal.whole ++ literal.fraction) : ℚ) := by
    rw [zpow_natCast]
    have hn : f.1 * 10 ^ (w.2.length + f.2.length) ≤ valueOf (literal.whole ++ literal.fraction) :=
      hle
    exact_mod_cast hn
  have hpos : (0 : ℚ) < (10 : ℚ) ^ (p - (literal.fraction.length : ℤ)) := by positivity
  unfold Decimal.toRat
  dsimp only
  calc (f.1 : ℚ) * (10 : ℚ) ^
        ((w.2.length : ℤ) - ((literal.fraction.length - f.2.length : ℕ) : ℤ) + p)
      = (f.1 : ℚ) * (10 : ℚ) ^ ((w.2.length + f.2.length : ℕ) : ℤ) *
          (10 : ℚ) ^ (p - (literal.fraction.length : ℤ)) := by
        rw [mul_assoc, ← zpow_add₀ hten]
        congr 2
        omega
    _ ≤ _ := mul_le_mul_of_nonneg_right hcast hpos.le

end Settings.Json
