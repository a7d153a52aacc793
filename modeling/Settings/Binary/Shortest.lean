import Settings.Binary.Rounding

/-!
# The shortest decimal that reads back

Of the decimals that round to a number, one on the coarsest decimal grid is
selected, and of two on that grid the nearer; an exact tie goes to the even
one. Whether a candidate reads back is asked of the rounding itself. A grid has
a decimal that reads back only if one of the number's two neighbours on it
does, so only these are tried. Seventeen digits are tried; the exact value,
which always reads back, ends the search. The main statement is that whatever
is selected reads back.
-/

namespace Settings.Binary

variable {F : Format}

/-- Whether a decimal rounds to the given rank. -/
def readsBack (F : Format) (rank : Nat) (d : Decimal) : Bool :=
  decide (nearestDecimal F d = rank)

/-- The exact value of a rank as a decimal: `units / 2 ^ scale` is
`units * 5 ^ scale` over `10 ^ scale`. -/
def exactDecimal (F : Format) (rank : Nat) : Decimal :=
  ⟨F.units rank * Nat.pow 5 F.scale, -(F.scale : Int)⟩

/-- The exponent of the leading decimal digit of a positive rank's value. It is
estimated from below by the binary one and then raised as far as needed. -/
def leadingExponent (F : Format) (rank : Nat) : Int :=
  let units := F.units rank
  let estimate := (((units.log2 : Int) - F.scale) * 30103) / 100000
  let reached (k : Int) : Bool :=
    decide (Decimal.tenTo k.toNat <<< F.scale ≤ units * Decimal.tenTo (-k).toNat)
  if reached (estimate + 2) then estimate + 2
  else if reached (estimate + 1) then estimate + 1
  else estimate

/-- The decimal on the grid of `10 ^ grid` that reads back as the rank, the
nearer one if both neighbours of the value do. -/
def onGrid (F : Format) (rank : Nat) (grid : Int) : Option Decimal :=
  let numerator := F.units rank * Decimal.tenTo (-grid).toNat
  let denominator := Decimal.tenTo grid.toNat <<< F.scale
  let below := numerator / denominator
  let lower : Decimal := ⟨below, grid⟩
  let upper : Decimal := ⟨below + 1, grid⟩
  match readsBack F rank lower, readsBack F rank upper with
  | true, true => some ⟨roundTiesEven numerator denominator, grid⟩
  | true, false => some lower
  | false, true => some upper
  | false, false => none

/-- The shortest decimal that reads back as the rank; zero is zero. -/
def shortest (F : Format) (rank : Nat) : Decimal :=
  if rank = 0 then ⟨0, 0⟩
  else
    let lead := leadingExponent F rank
    let grids := (List.range 17).map fun (n : Nat) => lead - (n : Int)
    ((grids.findSome? (onGrid F rank)).getD (exactDecimal F rank)).normal

/-! ### The shortest decimal reads back -/

/-- Moving trailing zeros into the exponent does not change the nearest rank. -/
theorem nearestDecimal_dropZeros (F : Format) (fuel : Nat) (d : Decimal) :
    nearestDecimal F (Decimal.dropZeros fuel d) = nearestDecimal F d := by
  induction fuel generalizing d with
  | zero => rfl
  | succ fuel ih =>
    simp only [Decimal.dropZeros]
    split
    · next h =>
      rw [ih, ← nearestDecimal_shift, Nat.div_mul_cancel (Nat.dvd_of_mod_eq_zero h.2)]
    · rfl

/-- The exact value of a rank reads back. -/
theorem nearestDecimal_exactDecimal (F : Format) (hp : 0 < F.precision) (rank : Nat) :
    nearestDecimal F (exactDecimal F rank) = rank := by
  have h1 : (-(F.scale : Int)).toNat = 0 := by omega
  have h2 : (-(-(F.scale : Int))).toNat = F.scale := by omega
  have h3 : Decimal.tenTo F.scale = Nat.pow 5 F.scale * 2 ^ F.scale := by
    show 10 ^ F.scale = 5 ^ F.scale * 2 ^ F.scale
    rw [← Nat.mul_pow]
  have h4 : 0 < Nat.pow 5 F.scale * 2 ^ F.scale :=
    Nat.mul_pos (Nat.pow_pos (by decide)) (Nat.two_pow_pos _)
  have h5 : Decimal.tenTo 0 = 1 := rfl
  simp only [nearestDecimal, exactDecimal, h1, h2, h3, h5, Nat.shiftLeft_eq, Nat.mul_one]
  have h6 := nearest_scale F (F.units rank) 1 _ h4
  rw [Nat.one_mul] at h6
  rw [Nat.mul_assoc, h6, nearest_units F hp]

/-- What is found on a grid reads back. -/
theorem nearestDecimal_onGrid {F : Format} {rank : Nat} {grid : Int} {d : Decimal}
    (h : onGrid F rank grid = some d) : nearestDecimal F d = rank := by
  simp only [onGrid] at h
  generalize hn : F.units rank * Decimal.tenTo (-grid).toNat = n at h
  generalize hd : Decimal.tenTo grid.toNat <<< F.scale = m at h
  split at h
  · next hl hu =>
    cases h
    rcases roundTiesEven_cases n m with hr | hr <;> rw [hr]
    · exact of_decide_eq_true hl
    · exact of_decide_eq_true hu
  · next hl hu => cases h; exact of_decide_eq_true hl
  · next hl hu => cases h; exact of_decide_eq_true hu
  · cases h

/-- The shortest decimal reads back, whichever way it was found. -/
theorem nearestDecimal_shortest (F : Format) (hp : 0 < F.precision) (rank : Nat) :
    nearestDecimal F (shortest F rank) = rank := by
  by_cases h0 : rank = 0
  · have h1 : F.units 0 = 0 := by simp only [Format.units, Nat.zero_div, if_true]
    have h2 := nearest_units F hp 0
    rw [h1] at h2
    subst h0
    simp only [shortest, if_true, nearestDecimal, Nat.zero_mul, Nat.zero_shiftLeft]
    exact h2
  · simp only [shortest, h0, if_false, Decimal.normal, nearestDecimal_dropZeros]
    cases hs : List.findSome? (onGrid F rank)
        ((List.range 17).map fun (n : Nat) => leadingExponent F rank - (n : Int)) with
    | none => exact nearestDecimal_exactDecimal F hp rank
    | some d =>
      obtain ⟨grid, _, hg⟩ := List.exists_of_findSome?_eq_some hs
      exact nearestDecimal_onGrid hg

end Settings.Binary
