import Settings.Proofs.Binary.Integers
import Settings.Proofs.Json.Written

/-!
# Plain integers keep their value

A plain literal has neither point nor exponent, and its digits denote a safe integer. A
script writes the numbers that are safe integers as plain literals. Whoever reads such a
literal as a stored number and writes that number down again has changed at most how it
is spelled: minus zero alone becomes a double, and its text denotes minus zero still.
-/

namespace Settings.Json

open Binary (double greatestSafe)

/-- A literal without point and exponent whose digits denote a safe integer. -/
structure Literal.Plain (l : Literal) : Prop where
  /-- There is no point. -/
  fraction_eq : l.fraction = []
  /-- There is no exponent. -/
  power_eq : l.power = none
  /-- The digits denote no more than the greatest safe integer. -/
  value_le : Decimal.valueOf l.whole ≤ greatestSafe

/-! ### What a script writes -/

/-- The leading digit of a safe integer has an exponent that a script lays out
positionally. -/
theorem order_of_value_le {d : Decimal} (he : 0 ≤ d.exponent)
    (hv : Decimal.tenTo d.exponent.toNat * d.digits ≤ greatestSafe) (h0 : d.digits ≠ 0) :
    0 ≤ d.order ∧ d.order ≤ 20 := by
  have hlen : 0 < (Decimal.digitsOf d.digits).length :=
    List.length_pos_iff.mpr (Decimal.digitsOf_ne_nil _)
  have horder : d.order = d.exponent + (Decimal.digitsOf d.digits).length - 1 := rfl
  refine ⟨by omega, ?_⟩
  by_contra hgt
  have hpower : Decimal.tenTo 20 ≤
      Decimal.tenTo (d.exponent.toNat + ((Decimal.digitsOf d.digits).length - 1)) :=
    Nat.pow_le_pow_right (by decide) (by omega)
  have hreached : Decimal.tenTo (d.exponent.toNat + ((Decimal.digitsOf d.digits).length - 1)) ≤
      greatestSafe := by
    rw [Decimal.tenTo_add]
    exact (Nat.mul_le_mul_left _ (Decimal.tenTo_le_of_digitsOf h0)).trans hv
  exact absurd (hpower.trans hreached) (by decide)

/-- A decimal that is a safe integer is laid out by a script as its digits and zeros. -/
theorem scriptNumber_literal (negative : Bool) {d : Decimal} (he : 0 ≤ d.exponent)
    (hv : Decimal.tenTo d.exponent.toNat * d.digits ≤ greatestSafe) (h0 : d.digits ≠ 0) :
    Binary.scriptNumber.literal negative d =
      ⟨negative, Decimal.digitsOf d.digits ++ Decimal.zeros d.exponent.toNat, [], none⟩ := by
  obtain ⟨hlow, hhigh⟩ := order_of_value_le he hv h0
  have horder : d.order = d.exponent + (Decimal.digitsOf d.digits).length - 1 := rfl
  have hfrom : Binary.scriptNumber.plainFrom ≤ d.order :=
    Int.le_trans (by decide) hlow
  have hlen : (Decimal.digitsOf d.digits).length ≤ d.order.toNat + 1 := by omega
  have hzeros : d.order.toNat + 1 - (Decimal.digitsOf d.digits).length = d.exponent.toNat := by
    omega
  unfold Decimal.Layout.literal Decimal.Layout.positionalLiteral
  rw [if_pos ⟨hfrom, hhigh⟩]
  dsimp only
  rw [if_neg (Int.not_lt.mpr hlow), if_pos hlen, hzeros]
  rfl

/-- A decimal that is a safe integer is laid out by a script as a plain literal. -/
theorem plain_scriptNumber (negative : Bool) {d : Decimal} (he : 0 ≤ d.exponent)
    (hv : Decimal.tenTo d.exponent.toNat * d.digits ≤ greatestSafe) (h0 : d.digits ≠ 0) :
    (Binary.scriptNumber.literal negative d).Plain := by
  rw [scriptNumber_literal negative he hv h0]
  refine ⟨rfl, rfl, ?_⟩
  dsimp only
  rwa [Decimal.valueOf_append_zeros, Decimal.valueOf_digitsOf]

/-- The literal as which a script writes a double. -/
def scriptLiteral (x : Binary.Finite double) : Literal :=
  if x.rank = 0 then integerLiteral 0
  else Binary.scriptNumber.literal x.negative (Binary.shortest double x.rank)

/-- A script writes a double as its literal. -/
theorem scriptLiteral_text (x : Binary.Finite double) :
    (scriptLiteral x).text = Binary.scriptText (.finite x) := by
  have hscript : Binary.scriptText (.finite x) =
      if x.rank = 0 then ['0'] else x.textIn Binary.scriptNumber := rfl
  rw [scriptLiteral, hscript]
  split
  · rw [integerLiteral_text]
    rfl
  · rw [Decimal.literal_text_layout, Binary.Finite.textIn]
    cases x.negative <;> rfl

/-- The literal of a double keeps to the grammar in a script too. -/
theorem scriptLiteral_proper (x : Binary.Finite double) : (scriptLiteral x).Proper := by
  rw [scriptLiteral]
  split
  · exact integerLiteral_proper 0
  · exact Decimal.literal_proper _ _ shortest_exponent_of_zero

/-- The shortest decimal of a double other than zero has digits. -/
theorem shortest_digits_ne_zero {x : Binary.Finite double} (h0 : x.rank ≠ 0) :
    (Binary.shortest double x.rank).digits ≠ 0 := by
  intro hz
  have hd : Binary.shortest double x.rank = ⟨0, (Binary.shortest double x.rank).exponent⟩ := by
    rw [← hz]
  have hrank := Binary.nearestDecimal_shortest double double_precision_pos x.rank
  rw [hd, nearestDecimal_zero] at hrank
  exact h0 hrank.symm

/-- A script writes a safe integer as a plain literal. -/
theorem plain_scriptLiteral {x : Binary.Finite double} (h : x.Safe) : (scriptLiteral x).Plain := by
  rw [scriptLiteral]
  split
  · refine ⟨rfl, rfl, ?_⟩
    show Decimal.valueOf (Decimal.digitsOf 0) ≤ greatestSafe
    rw [Decimal.valueOf_digitsOf]
    exact Nat.zero_le _
  · next h0 =>
    obtain ⟨he, hv⟩ := h.shortest_spec h0
    exact plain_scriptNumber x.negative he hv (shortest_digits_ne_zero h0)

/-- A script writes a safe integer as the text of a plain literal. -/
theorem numberText_of_safe {x : Binary.Finite double} (h : x.Safe) :
    ∃ l, NumberText (Binary.scriptText (.finite x)) l ∧ l.Plain := by
  have htext := (scriptLiteral_proper x).numberText
  rw [scriptLiteral_text] at htext
  exact ⟨scriptLiteral x, htext, plain_scriptLiteral h⟩

/-! ### What a stored number denotes -/

/-- The double that a script makes of a literal. -/
def Literal.toDouble (l : Literal) : Binary double :=
  Binary.ofDecimal double l.negative l.magnitude

/-- The double of a plain literal is that of its integer. -/
theorem Literal.Plain.toDouble_eq {l : Literal} (h : l.Plain) :
    l.toDouble = Binary.ofDecimal double l.negative ⟨Decimal.valueOf l.whole, 0⟩ := by
  rw [Literal.toDouble, Literal.magnitude, h.fraction_eq, h.power_eq, List.append_nil]
  rfl

/-- The double of the literal of an integer. -/
theorem toDouble_integerLiteral (n : Int) :
    (integerLiteral n).toDouble = Binary.ofDecimal double (decide (n < 0)) ⟨n.natAbs, 0⟩ := by
  rw [Literal.toDouble, Literal.magnitude, integerLiteral]
  dsimp only
  rw [List.append_nil, Decimal.valueOf_digitsOf]
  rfl

/-- A safe integer of either sign is in the stored range. -/
theorem ofInt?_of_safe {n : Int} (h : n.natAbs ≤ greatestSafe) :
    ∃ hrange, Number.ofInt? n = some (.integer n hrange) := by
  have hrange : leastInteger ≤ n ∧ n ≤ greatestInteger := by
    unfold greatestSafe at h
    unfold leastInteger greatestInteger
    omega
  exact ⟨hrange, by rw [Number.ofInt?, dif_pos hrange]⟩

/-- A plain literal that is not minus zero is read as its integer. -/
theorem Literal.Plain.number_integer {l : Literal} (h : l.Plain)
    (hz : l.negative = true → Decimal.valueOf l.whole ≠ 0) :
    ∃ n hrange, l.number = .ok (.integer n hrange) ∧ decide (n < 0) = l.negative ∧
      n.natAbs = Decimal.valueOf l.whole := by
  obtain ⟨negative, whole, fraction, power⟩ := l
  obtain ⟨rfl, rfl, hv⟩ := h
  dsimp only at hz hv ⊢
  cases negative with
  | false =>
    obtain ⟨hrange, hof⟩ := ofInt?_of_safe (n := Decimal.valueOf whole) (by omega)
    refine ⟨_, hrange, ?_, decide_eq_false (by omega), Int.natAbs_natCast _⟩
    simp only [Literal.number, Literal.integer?, Bool.false_eq_true, if_false, hof]
  | true =>
    have hne := hz rfl
    obtain ⟨hrange, hof⟩ := ofInt?_of_safe (n := -(Decimal.valueOf whole : Int)) (by omega)
    refine ⟨_, hrange, ?_, decide_eq_true (by omega), by omega⟩
    simp only [Literal.number, Literal.integer?, if_true, hne, if_false, hof]

/-- Minus zero is read as a double. -/
theorem Literal.Plain.number_minusZero {l : Literal} (h : l.Plain) (hneg : l.negative = true)
    (hz : Decimal.valueOf l.whole = 0) : l.number = .ok (zeroOf true) := by
  obtain ⟨negative, whole, fraction, power⟩ := l
  obtain ⟨rfl, rfl, -⟩ := h
  dsimp only at hneg hz
  subst hneg
  have htaken : accumulate greatestSignificand 0 whole = (0, []) := by
    rw [accumulate_all (by rw [hz]; exact Nat.zero_le _), hz]
  have hfloat : floatOf true ⟨0, 0⟩ = some (zeroOf true) := by decide +kernel
  simp only [Literal.number, Literal.integer?, if_true, hz, Literal.collected, htaken, accumulate]
  simp [hfloat]

/-- The stored number of a plain literal is written as a literal of the same double. -/
theorem Literal.Plain.toDouble_number {l : Literal} (h : l.Plain) {n : Number}
    (hn : l.number = .ok n) : n.literal.toDouble = l.toDouble := by
  rw [h.toDouble_eq]
  by_cases hminus : l.negative = true ∧ Decimal.valueOf l.whole = 0
  · obtain ⟨hneg, hz⟩ := hminus
    rw [h.number_minusZero hneg hz] at hn
    cases hn
    rw [hneg, hz]
    decide +kernel
  · obtain ⟨m, hrange, hm, hsign, hvalue⟩ := h.number_integer fun hneg hz => hminus ⟨hneg, hz⟩
    rw [hm] at hn
    cases hn
    rw [Number.literal, toDouble_integerLiteral, hsign, hvalue]

end Settings.Json
