import Settings.Decimal.Layout

/-!
# Digits and the numbers they denote

The digits of a number give it back, have no leading zero unless the number is
zero, and are as many as its size needs. A text of digits that is cut in two
denotes its first part moved up by the length of the second.
-/

namespace Settings.Decimal

/-- The digits of a number denote it. -/
@[simp]
theorem valueOf_digitsOf (n : Nat) : valueOf (digitsOf n) = n :=
  Nat.ofDigitChars_ten_toDigits

/-- Every number has a digit. -/
theorem digitsOf_ne_nil (n : Nat) : digitsOf n ≠ [] :=
  Nat.toDigits_ne_nil

/-- The digits of a number are decimal digits. -/
theorem isDigit_of_mem_digitsOf {n : Nat} {c : Char} (h : c ∈ digitsOf n) : c.isDigit = true :=
  Nat.isDigit_of_mem_toDigits (by decide) (by decide) h

/-- Zero has one digit. -/
theorem digitsOf_zero : digitsOf 0 = ['0'] :=
  Nat.toDigits_zero 10

/-- The digits of a positive number do not start with zero. -/
theorem head_digitsOf_ne {n : Nat} (h : n ≠ 0) : (digitsOf n).head? ≠ some '0' := by
  induction n using Nat.strongRecOn with
  | ind n ih =>
    rcases Nat.lt_or_ge n 10 with hlt | hge
    · rw [digitsOf, Nat.toDigits_of_lt_base hlt]
      have hn : ∀ m < 10, m ≠ 0 → [m.digitChar].head? ≠ some '0' := by decide
      exact hn n hlt h
    · have hd := ih (n / 10) (by omega) (by omega)
      rw [digitsOf, Nat.toDigits_of_base_le (by decide) hge, List.head?_append]
      cases hf : (digitsOf (n / 10)).head? with
      | none => exact absurd (List.head?_eq_none_iff.mp hf) (digitsOf_ne_nil _)
      | some c =>
        rw [hf] at hd
        have hf' : (Nat.toDigits 10 (n / 10)).head? = some c := hf
        rw [hf']
        exact hd

/-- A positive number reaches the power of ten of its leading digit. -/
theorem tenTo_le_of_digitsOf {n : Nat} (h : n ≠ 0) : tenTo ((digitsOf n).length - 1) ≤ n := by
  by_cases h1 : (digitsOf n).length - 1 = 0
  · rw [h1]
    exact Nat.one_le_iff_ne_zero.mpr h
  · have hiff := Nat.length_toDigits_le_iff (b := 10) (n := n) (by decide) (Nat.pos_of_ne_zero h1)
    have hlt : ¬(digitsOf n).length ≤ (digitsOf n).length - 1 := by omega
    exact Nat.not_lt.mp fun h' => hlt (hiff.mpr h')

/-- No digits denote zero. -/
@[simp]
theorem valueOf_nil : valueOf [] = 0 :=
  Nat.ofDigitChars_nil

/-- Digits in two parts denote the first part, moved up, and the second. -/
theorem valueOf_append (ds es : List Char) :
    valueOf (ds ++ es) = tenTo es.length * valueOf ds + valueOf es := by
  rw [valueOf, Nat.ofDigitChars_append, Nat.ofDigitChars_eq_ofDigitChars_zero]
  rfl

/-- A first digit counts as often as the length of the others says. -/
theorem valueOf_cons (c : Char) (ds : List Char) :
    valueOf (c :: ds) = tenTo ds.length * digitValue c + valueOf ds := by
  rw [valueOf, Nat.ofDigitChars_cons, Nat.ofDigitChars_eq_ofDigitChars_zero]
  simp only [Nat.mul_zero, Nat.zero_add]
  rfl

/-- A run of zeros denotes zero. -/
theorem valueOf_zeros (count : Nat) : valueOf (zeros count) = 0 := by
  rw [valueOf, zeros, Nat.ofDigitChars_replicate_zero, Nat.mul_zero]

/-- Zeros in front of digits do not count. -/
theorem valueOf_zeros_append (count : Nat) (ds : List Char) :
    valueOf (zeros count ++ ds) = valueOf ds := by
  rw [valueOf_append, valueOf_zeros, Nat.mul_zero, Nat.zero_add]

/-- Zeros behind digits move them up. -/
theorem valueOf_append_zeros (ds : List Char) (count : Nat) :
    valueOf (ds ++ zeros count) = tenTo count * valueOf ds := by
  rw [valueOf_append, valueOf_zeros, Nat.add_zero, zeros, List.length_replicate]

end Settings.Decimal
