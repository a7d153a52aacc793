import Settings.Binary.Text
import Settings.Proofs.Decimal.Magnitude
import Settings.Proofs.Json.Literal

/-!
# A decimal that is laid out is a literal

Every layout writes a decimal as a literal that keeps to the grammar, and the
exact magnitude of that literal is the decimal, with the point and the exponent
moved about as the layout decides. The three positional forms and the exponent
form each name the parts of their literal.
-/

namespace Settings.Decimal

open Json (Literal)

/-- The literal of the positional form of a decimal. -/
def Layout.positionalLiteral (layout : Layout) (negative : Bool) (d : Decimal) : Literal :=
  let digits := digitsOf d.digits
  if d.order < 0 then
    ⟨negative, ['0'], zeros (-d.order - 1).toNat ++ digits, none⟩
  else if digits.length ≤ d.order.toNat + 1 then
    ⟨negative, digits ++ zeros (d.order.toNat + 1 - digits.length),
      if layout.pointZero then ['0'] else [], none⟩
  else
    ⟨negative, digits.take (d.order.toNat + 1), digits.drop (d.order.toNat + 1), none⟩

/-- The literal of the exponent form of a decimal. -/
def scientificLiteral (negative : Bool) (d : Decimal) : Literal :=
  ⟨negative, (digitsOf d.digits).take 1, (digitsOf d.digits).drop 1,
    some ⟨decide (d.order < 0), digitsOf d.order.natAbs⟩⟩

/-- The literal of a decimal in a layout. -/
def Layout.literal (layout : Layout) (negative : Bool) (d : Decimal) : Literal :=
  if layout.plainFrom ≤ d.order ∧ d.order ≤ layout.plainTo then
    layout.positionalLiteral negative d
  else scientificLiteral negative d

/-- Digits after the point are written with the point. -/
theorem fractionText_eq {ds : List Char} (h : ds ≠ []) : Json.fractionText ds = '.' :: ds := by
  cases ds with
  | nil => exact absurd rfl h
  | cons c ds => rfl

/-- The positional form is the text of its literal. -/
theorem positionalLiteral_text (layout : Layout) (negative : Bool) (d : Decimal) :
    (layout.positionalLiteral negative d).text =
      (if negative then ['-'] else []) ++ layout.positional (digitsOf d.digits) d.order := by
  have hne : zeros (-d.order - 1).toNat ++ digitsOf d.digits ≠ [] :=
    List.append_ne_nil_of_right_ne_nil _ (digitsOf_ne_nil _)
  unfold Layout.positionalLiteral Layout.positional Literal.text
  dsimp only
  split
  · simp only [fractionText_eq hne, Json.powerText, List.append_nil, List.cons_append,
      List.nil_append]
  · split
    · cases layout.pointZero <;>
        simp only [Json.fractionText, Json.powerText, List.append_nil, if_true, Bool.false_eq_true,
          if_false]
    · next hlen =>
      have hdrop : (digitsOf d.digits).drop (d.order.toNat + 1) ≠ [] := by
        intro h
        have := List.drop_eq_nil_iff.mp h
        omega
      simp only [fractionText_eq hdrop, Json.powerText, List.append_nil]

/-- The exponent form is the text of its literal. -/
theorem scientificLiteral_text (negative : Bool) (d : Decimal) :
    (scientificLiteral negative d).text =
      (if negative then ['-'] else []) ++ scientific (digitsOf d.digits) d.order := by
  have hne := digitsOf_ne_nil d.digits
  unfold scientificLiteral scientific Literal.text
  cases h : digitsOf d.digits with
  | nil => exact absurd h hne
  | cons c ds =>
    cases ds with
    | nil =>
      by_cases hs : d.order < 0 <;>
        simp [Json.fractionText, Json.powerText, Json.Power.text, exponentText, hs]
    | cons e ds =>
      by_cases hs : d.order < 0 <;>
        simp [Json.fractionText, Json.powerText, Json.Power.text, exponentText, hs]

/-- What a layout writes is the text of its literal. -/
theorem literal_text_layout (layout : Layout) (negative : Bool) (d : Decimal) :
    (layout.literal negative d).text =
      (if negative then ['-'] else []) ++ layout.text d := by
  unfold Layout.literal Layout.text
  split
  · exact positionalLiteral_text layout negative d
  · exact scientificLiteral_text negative d

/-! ### The literal keeps to the grammar -/

/-- A zero in front of the digits of a decimal is all of them. -/
theorem digitsOf_of_head {n : Nat} (h : (digitsOf n).head? = some '0') : n = 0 := by
  by_contra hn
  exact head_digitsOf_ne hn h

/-- The leading digit of the decimal zero has its exponent. -/
theorem order_zero {d : Decimal} (h : d.digits = 0) : d.order = d.exponent := by
  rw [order, h, digitsOf_zero]
  simp only [List.length_singleton]
  omega

/-- Zeros are digits. -/
theorem isDigit_of_mem_zeros {n : Nat} {c : Char} (h : c ∈ zeros n) : c.isDigit = true := by
  rw [List.eq_of_mem_replicate h]
  rfl

/-- Zeros and the digits of a number, in either order, are digits. -/
theorem isDigit_of_mem_padded {n m : Nat} {c : Char} (h : c ∈ zeros n ∨ c ∈ digitsOf m) :
    c.isDigit = true := by
  rcases h with h | h
  · exact isDigit_of_mem_zeros h
  · exact isDigit_of_mem_digitsOf h

/-- Digits that are padded with zeros start with a zero only when the number is
zero. -/
theorem eq_zero_of_padded {m n : Nat} (h : (digitsOf m ++ zeros n).head? = some '0') : m = 0 := by
  cases hds : digitsOf m with
  | nil => exact absurd hds (digitsOf_ne_nil _)
  | cons c ds =>
    rw [hds] at h
    exact digitsOf_of_head (by rw [hds]; exact h)

/-- A decimal that is not a shifted zero is laid out by a literal that keeps to
the grammar. -/
theorem positionalLiteral_proper (layout : Layout) (negative : Bool) {d : Decimal}
    (hz : d.digits = 0 → d.exponent = 0) : (layout.positionalLiteral negative d).Proper := by
  have hd : ∀ c ∈ digitsOf d.digits, c.isDigit = true := fun c hc => isDigit_of_mem_digitsOf hc
  unfold Layout.positionalLiteral
  dsimp only
  split
  · refine ⟨List.cons_ne_nil _ _, ?_, fun _ => rfl,
      fun c hc => isDigit_of_mem_padded (List.mem_append.mp hc), by simp, by simp⟩
    intro c hc
    rw [List.mem_singleton.mp hc]
    rfl
  · split
    · next hneg hlen =>
      refine ⟨List.append_ne_nil_of_left_ne_nil (digitsOf_ne_nil _) _, ?_, ?_, ?_, by simp,
        by simp⟩
      · exact fun c hc => isDigit_of_mem_padded (List.mem_append.mp hc).symm
      · intro hh
        have h0 : d.digits = 0 := eq_zero_of_padded hh
        rw [order_zero h0, hz h0, h0, digitsOf_zero]
        rfl
      · intro c hc
        cases hp : layout.pointZero with
        | false => rw [hp] at hc; cases hc
        | true => rw [hp] at hc; rw [List.mem_singleton.mp hc]; rfl
    · next hneg hlen =>
      refine ⟨?_, fun c hc => hd c (List.mem_of_mem_take hc), ?_,
        fun c hc => hd c (List.mem_of_mem_drop hc), by simp, by simp⟩
      · intro h
        rcases List.take_eq_nil_iff.mp h with h | h
        · omega
        · exact digitsOf_ne_nil _ h
      · intro hh
        rw [List.head?_take, if_neg (by omega)] at hh
        have h0 := digitsOf_of_head hh
        rw [h0, digitsOf_zero] at hlen
        simp only [List.length_singleton] at hlen
        omega

/-- The exponent form keeps to the grammar. -/
theorem scientificLiteral_proper (negative : Bool) (d : Decimal) :
    (scientificLiteral negative d).Proper := by
  have hd : ∀ c ∈ digitsOf d.digits, c.isDigit = true := fun c hc => isDigit_of_mem_digitsOf hc
  refine ⟨?_, fun c hc => hd c (List.mem_of_mem_take hc), ?_,
    fun c hc => hd c (List.mem_of_mem_drop hc), ?_, ?_⟩
  · intro h
    rcases List.take_eq_nil_iff.mp h with h | h
    · omega
    · exact digitsOf_ne_nil _ h
  · intro hh
    have h0 : (digitsOf d.digits).head? = some '0' := by
      simpa only [scientificLiteral, List.head?_take, Nat.one_ne_zero, if_false] using hh
    rw [scientificLiteral, digitsOf_of_head h0, digitsOf_zero]
    rfl
  · intro p hp
    cases hp
    exact digitsOf_ne_nil _
  · intro p hp
    cases hp
    exact fun c hc => isDigit_of_mem_digitsOf hc

/-- A layout keeps to the grammar. -/
theorem literal_proper (layout : Layout) (negative : Bool) {d : Decimal}
    (hz : d.digits = 0 → d.exponent = 0) : (layout.literal negative d).Proper := by
  unfold Layout.literal
  split
  · exact positionalLiteral_proper layout negative hz
  · exact scientificLiteral_proper negative d

/-! ### The literal denotes the decimal -/

/-- The digits of a decimal denote its units. -/
theorem valueOf_take_append_drop (n count : Nat) :
    valueOf ((digitsOf n).take count ++ (digitsOf n).drop count) = n := by
  rw [List.take_append_drop, valueOf_digitsOf]

/-- Units of a decimal that are moved up lower its exponent. -/
theorem toRat_shift (n count : Nat) (e : ℤ) :
    toRat ⟨tenTo count * n, e⟩ = toRat ⟨n, e + count⟩ := by
  have hten : (10 : ℚ) ≠ 0 := by norm_num
  simp only [toRat, Nat.cast_mul, cast_tenTo, zpow_add₀ hten]
  ring

/-- The positional form denotes the decimal. -/
theorem positionalLiteral_magnitude (layout : Layout) (negative : Bool) (d : Decimal) :
    (layout.positionalLiteral negative d).magnitude.toRat = d.toRat := by
  have hlen : 0 < (digitsOf d.digits).length := List.length_pos_iff.mpr (digitsOf_ne_nil _)
  have horder : d.order = d.exponent + (digitsOf d.digits).length - 1 := rfl
  unfold Layout.positionalLiteral Literal.magnitude
  dsimp only
  split
  · have hv : valueOf (['0'] ++ (zeros (-d.order - 1).toNat ++ digitsOf d.digits)) = d.digits := by
      rw [← List.append_assoc, show ['0'] = zeros 1 from rfl, zeros, zeros,
        List.replicate_append_replicate]
      exact (valueOf_zeros_append _ _).trans (valueOf_digitsOf _)
    have he : (0 : ℤ) - ((zeros (-d.order - 1).toNat ++ digitsOf d.digits).length : ℤ) =
        d.exponent := by
      rw [List.length_append, zeros, List.length_replicate]
      omega
    rw [hv]
    exact congrArg (fun e => toRat ⟨d.digits, e⟩) he
  · split
    · next hneg hle =>
      cases layout.pointZero with
      | false =>
        rw [if_neg Bool.false_ne_true, List.append_nil, valueOf_append_zeros, valueOf_digitsOf,
          toRat_shift]
        refine congrArg (fun e => toRat ⟨d.digits, e⟩) ?_
        simp only [Option.map_none, Option.getD_none, List.length_nil]
        omega
      | true =>
        have hz : digitsOf d.digits ++ zeros (d.order.toNat + 1 - (digitsOf d.digits).length) ++
            ['0'] = digitsOf d.digits ++
              zeros (d.order.toNat + 1 - (digitsOf d.digits).length + 1) := by
          rw [List.append_assoc, show ['0'] = zeros 1 from rfl]
          simp only [zeros, List.replicate_append_replicate]
        rw [if_pos rfl, hz, valueOf_append_zeros, valueOf_digitsOf, toRat_shift]
        refine congrArg (fun e => toRat ⟨d.digits, e⟩) ?_
        simp only [Option.map_none, Option.getD_none, List.length_singleton]
        omega
    · next hneg hgt =>
      rw [valueOf_take_append_drop]
      refine congrArg (fun e => toRat ⟨d.digits, e⟩) ?_
      simp only [Option.map_none, Option.getD_none, List.length_drop]
      omega

/-- A written exponent has the value from which it was made. -/
theorem power_value (e : ℤ) : Json.Power.value ⟨decide (e < 0), digitsOf e.natAbs⟩ = e := by
  unfold Json.Power.value
  dsimp only
  rw [valueOf_digitsOf]
  by_cases h : e < 0
  · rw [decide_eq_true h, if_pos rfl]
    omega
  · rw [decide_eq_false h, if_neg Bool.false_ne_true]
    omega

/-- The exponent form denotes the decimal. -/
theorem scientificLiteral_magnitude (negative : Bool) (d : Decimal) :
    (scientificLiteral negative d).magnitude = d := by
  have hlen : 0 < (digitsOf d.digits).length := List.length_pos_iff.mpr (digitsOf_ne_nil _)
  have horder : d.order = d.exponent + (digitsOf d.digits).length - 1 := rfl
  unfold scientificLiteral Literal.magnitude
  dsimp only
  rw [valueOf_take_append_drop]
  refine congrArg (Decimal.mk d.digits) ?_
  rw [Option.map_some, Option.getD_some, power_value, List.length_drop]
  omega

/-- The literal of a decimal denotes it in every layout. -/
theorem literal_magnitude (layout : Layout) (negative : Bool) (d : Decimal) :
    (layout.literal negative d).magnitude.toRat = d.toRat := by
  unfold Layout.literal
  split
  · exact positionalLiteral_magnitude layout negative d
  · rw [scientificLiteral_magnitude]

end Settings.Decimal
