import Settings.Binary.Basic
import Settings.Decimal.Basic

/-!
# Rounding to the nearest binary number

One function decides every rounding: a rational number of units becomes the
rank of the nearest magnitude, an exact half going to the even rank. Reading a
decimal, changing the format, products and quotients are instances of it with
an exact numerator and denominator, and so round once. Ranks are unbounded
here; one that is not finite is an infinity. The main statement is that the
exact value of a rank is rounded to that rank.
-/

namespace Settings.Binary

/-- The natural number nearest to a quotient, an exact half going to the even
one. -/
def roundTiesEven (numerator denominator : Nat) : Nat :=
  let quotient := numerator / denominator
  let twice := 2 * (numerator % denominator)
  if twice < denominator then quotient
  else if denominator < twice then quotient + 1
  else quotient + quotient % 2

/-- The rank of the magnitude nearest to `numerator / denominator` units. With
the quotient in the binade `shift` above the least one, the spacing there is
`2 ^ shift` units, and the rounded count of spacings is added to the ranks of
the binades below; a count that is carried into the next binade is its first
rank. -/
def nearest (F : Format) (numerator denominator : Nat) : Nat :=
  let shift := (numerator / denominator).log2 + 1 - F.precision
  shift * F.leading + roundTiesEven numerator (denominator <<< shift)

/-- The rank nearest to a decimal. -/
def nearestDecimal (F : Format) (d : Decimal) : Nat :=
  nearest F ((d.digits * Decimal.tenTo d.exponent.toNat) <<< F.scale)
    (Decimal.tenTo (-d.exponent).toNat)

/-- The number nearest to a decimal with a sign. A decimal so large or so small
that its digits cannot matter is decided by its order alone. -/
def ofDecimal (F : Format) (negative : Bool) (d : Decimal) : Binary F :=
  if d.digits = 0 ∨ d.order < -(F.scale : Int) - 1 then ofRank F negative 0
  else if (F.scale : Int) < d.order then .infinite negative
  else ofRank F negative (nearestDecimal F d)

/-- The number nearest to an integer. -/
def ofInt (F : Format) (n : Int) : Binary F :=
  ofRank F (decide (n < 0)) (nearest F (n.natAbs <<< F.scale) 1)

/-- The rank nearest to the product of two ranks' values. -/
def productRank (F : Format) (a b : Nat) : Nat :=
  nearest F (F.units a * F.units b) (1 <<< F.scale)

/-- The rank nearest to the quotient of two ranks' values. -/
def quotientRank (F : Format) (a b : Nat) : Nat :=
  nearest F (F.units a <<< F.scale) (F.units b)

/-- The number of another format nearest to a finite one. -/
def Finite.convert {F : Format} (G : Format) (x : Finite F) : Binary G :=
  ofRank G x.negative (nearest G (x.units <<< G.scale) (1 <<< F.scale))

/-- The number of another format nearest to a number. -/
def convert {F : Format} (G : Format) : Binary F → Binary G
  | .nan => .nan
  | .infinite negative => .infinite negative
  | .finite x => x.convert G

/-! ### What rounding keeps -/

/-- An exact quotient is not rounded. -/
theorem roundTiesEven_exact (n d : Nat) (h : 0 < d) : roundTiesEven (n * d) d = n := by
  have hd : n * d / d = n := Nat.mul_div_cancel n h
  have hm : n * d % d = 0 := Nat.mul_mod_left n d
  simp only [roundTiesEven, hd, hm, Nat.mul_zero, h, if_true]

/-- Rounding depends on the quotient alone. -/
theorem roundTiesEven_scale (a b c : Nat) (h : 0 < c) :
    roundTiesEven (a * c) (b * c) = roundTiesEven a b := by
  have hd : a * c / (b * c) = a / b := Nat.mul_div_mul_right a b h
  have hm : a * c % (b * c) = a % b * c := Nat.mul_mod_mul_right c a b
  have hl : ∀ x y : Nat, x * c < y * c ↔ x < y := fun x y => Nat.mul_lt_mul_right h
  simp only [roundTiesEven, hd, hm, ← Nat.mul_assoc, hl]

/-- Rounding gives one of the two neighbours. -/
theorem roundTiesEven_cases (a b : Nat) :
    roundTiesEven a b = a / b ∨ roundTiesEven a b = a / b + 1 := by
  simp only [roundTiesEven]
  split
  · exact Or.inl rfl
  · split
    · exact Or.inr rfl
    · rcases Nat.mod_two_eq_zero_or_one (a / b) with h | h <;> omega

/-- The nearest rank depends on the quotient alone. -/
theorem nearest_scale (F : Format) (a b c : Nat) (h : 0 < c) :
    nearest F (a * c) (b * c) = nearest F a b := by
  have hd : a * c / (b * c) = a / b := Nat.mul_div_mul_right a b h
  simp only [nearest, hd, Nat.shiftLeft_eq]
  rw [Nat.mul_right_comm, roundTiesEven_scale _ _ _ h]

/-- The exact value of a rank is rounded to that rank. -/
theorem nearest_units (F : Format) (hp : 0 < F.precision) (rank : Nat) :
    nearest F (F.units rank) 1 = rank := by
  have hl : F.leading = 2 ^ (F.precision - 1) := by
    simp only [Format.leading, Nat.shiftLeft_eq, Nat.one_mul]
  have hpos : 0 < F.leading := by rw [hl]; exact Nat.two_pow_pos _
  by_cases he : rank / F.leading = 0
  · have hr : rank < F.leading := by
      rcases Nat.div_eq_zero_iff.mp he with h | h
      · omega
      · exact h
    have hs : rank.log2 + 1 - F.precision = 0 := by
      by_cases h0 : rank = 0
      · subst h0; simp only [Nat.log2_zero]; omega
      · have := (Nat.log2_lt h0).mpr (hl ▸ hr)
        omega
    simp only [nearest, Format.units, he, if_true, Nat.div_one, hs, Nat.zero_mul,
      Nat.shiftLeft_zero, Nat.zero_add]
    simpa only [Nat.mul_one] using roundTiesEven_exact rank 1 Nat.one_pos
  · have hf := Nat.mod_lt rank hpos
    have hdm := Nat.div_add_mod rank F.leading
    generalize hq : rank / F.leading = q at *
    generalize hg : rank % F.leading = f at *
    have hm0 : (F.leading + f) * 2 ^ (q - 1) ≠ 0 := by
      have := Nat.mul_pos (show 0 < F.leading + f by omega) (Nat.two_pow_pos (q - 1))
      omega
    have hlog : ((F.leading + f) * 2 ^ (q - 1)).log2 = F.precision - 1 + (q - 1) := by
      have hlow : F.precision - 1 + (q - 1) ≤ ((F.leading + f) * 2 ^ (q - 1)).log2 := by
        rw [Nat.le_log2 hm0, Nat.pow_add, ← hl]
        exact Nat.mul_le_mul_right _ (Nat.le_add_right _ _)
      have hhigh : ((F.leading + f) * 2 ^ (q - 1)).log2 < F.precision - 1 + (q - 1) + 1 := by
        rw [Nat.log2_lt hm0, Nat.add_right_comm, Nat.pow_add]
        apply Nat.mul_lt_mul_of_pos_right _ (Nat.two_pow_pos _)
        rw [Nat.pow_succ, ← hl]
        omega
      omega
    have hs : F.precision - 1 + (q - 1) + 1 - F.precision = q - 1 := by omega
    simp only [nearest, Format.units, hq, hg, he, if_false, Nat.shiftLeft_eq, Nat.div_one, hlog, hs,
      Nat.one_mul]
    rw [roundTiesEven_exact _ _ (Nat.two_pow_pos _), ← hdm]
    have : q = q - 1 + 1 := by omega
    calc (q - 1) * F.leading + (F.leading + f) = (q - 1 + 1) * F.leading + f := by
          rw [Nat.succ_mul]; omega
      _ = F.leading * q + f := by rw [← this, Nat.mul_comm]

/-- A factor ten of the digits may move into the exponent. -/
theorem nearestDecimal_shift (F : Format) (n : Nat) (e : Int) :
    nearestDecimal F ⟨n * 10, e⟩ = nearestDecimal F ⟨n, e + 1⟩ := by
  by_cases h : 0 ≤ e
  · have h1 : (e + 1).toNat = e.toNat + 1 := by omega
    have h2 : (-(e + 1)).toNat = (-e).toNat := by omega
    have h3 : Decimal.tenTo (e.toNat + 1) = 10 * Decimal.tenTo e.toNat := by
      rw [Decimal.tenTo_add, Nat.mul_comm]; rfl
    simp only [nearestDecimal, h1, h2, h3, Nat.mul_assoc]
  · have h1 : e.toNat = 0 := by omega
    have h2 : (e + 1).toNat = 0 := by omega
    have h3 : (-e).toNat = (-(e + 1)).toNat + 1 := by omega
    have h4 : Decimal.tenTo 0 = 1 := rfl
    have h5 : Decimal.tenTo 1 = 10 := rfl
    simp only [nearestDecimal, h1, h2, h3, h4, Decimal.tenTo_add, h5, Nat.shiftLeft_eq, Nat.mul_one]
    rw [Nat.mul_right_comm, nearest_scale _ _ _ _ (by decide)]

end Settings.Binary
