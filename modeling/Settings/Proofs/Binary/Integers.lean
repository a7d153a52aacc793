import Settings.Binary.Shortest
import Settings.Proofs.Decimal.Magnitude

/-!
# The shortest decimal of an integer

An integer below `2 ^ 53` is a double, and so is each of its neighbours. The grid of the
units has a decimal that reads back, namely the integer itself, and no finer grid is
tried before it: the shortest decimal is a natural number of units of a power of ten that
is no fraction. It stays below `2 ^ 53`, as that number already rounds to a greater rank.
-/

namespace Settings.Binary

/-- The greatest integer up to which all integers are doubles. -/
def greatestSafe : Nat := 9007199254740991

/-- The magnitude is an integer up to the greatest safe one. -/
def Finite.Safe (x : Finite double) : Prop :=
  ∃ n ≤ greatestSafe, x.units = n * 2 ^ double.scale

/-- A number that is not finite, or an integer up to the greatest safe one. -/
def Safe : Binary double → Prop
  | .finite x => x.Safe
  | _ => True

/-- Of a descending list the search finds nothing below an element that it would find. -/
theorem findSome?_descending {β : Type} {f : Int → Option β} {grids : List Int}
    (hd : grids.Pairwise (· > ·)) {g : Int} (hg : g ∈ grids) {b : β} (hb : f g = some b) :
    ∃ h ≥ g, ∃ c, f h = some c ∧ grids.findSome? f = some c := by
  induction grids with
  | nil => exact absurd hg List.not_mem_nil
  | cons first rest ih =>
    obtain ⟨hfirst, hrest⟩ := List.pairwise_cons.mp hd
    rw [List.findSome?_cons]
    cases hf : f first with
    | some c =>
      refine ⟨first, ?_, c, hf, rfl⟩
      rcases List.mem_cons.mp hg with rfl | hg
      · exact Int.le_refl _
      · exact Int.le_of_lt (hfirst g hg)
    | none =>
      rcases List.mem_cons.mp hg with rfl | hg
      · rw [hb] at hf; cases hf
      · exact ih hrest hg

/-- What is found on a grid stands on it. -/
theorem exponent_onGrid {F : Format} {rank : Nat} {grid : Int} {d : Decimal}
    (h : onGrid F rank grid = some d) : d.exponent = grid := by
  simp only [onGrid] at h
  split at h
  · cases h; rfl
  · cases h; rfl
  · cases h; rfl
  · cases h

/-- Dropping zeros does not lower the exponent. -/
theorem exponent_le_dropZeros (fuel : Nat) (d : Decimal) :
    d.exponent ≤ (Decimal.dropZeros fuel d).exponent := by
  induction fuel generalizing d with
  | zero => exact Int.le_refl _
  | succ fuel ih =>
    unfold Decimal.dropZeros
    split
    · have hrest := ih ⟨d.digits / 10, d.exponent + 1⟩
      dsimp only at hrest
      omega
    · exact Int.le_refl _

section Safe

variable {F : Format} {rank n : Nat} (hp : 0 < F.precision)
  (hunits : F.units rank = n * 2 ^ F.scale)

include hunits

include hp in
/-- The integer itself stands on the grid of the units. -/
theorem onGrid_zero : ∃ d, onGrid F rank 0 = some d := by
  have hone : Decimal.tenTo 0 = 1 := rfl
  have hbelow : n * 2 ^ F.scale * 1 / 1 <<< F.scale = n := by
    rw [Nat.mul_one, Nat.shiftLeft_eq, Nat.one_mul, Nat.mul_div_cancel _ (Nat.two_pow_pos _)]
  have hback : readsBack F rank ⟨n, 0⟩ = true := by
    have hrank := nearest_units F hp rank
    rw [hunits] at hrank
    refine decide_eq_true ?_
    simp only [nearestDecimal, Int.neg_zero, Int.toNat_zero, hone, Nat.mul_one, Nat.shiftLeft_eq]
    exact hrank
  unfold onGrid
  simp only [Int.neg_zero, Int.toNat_zero, hone, hunits, hbelow, hback]
  cases readsBack F rank ⟨n + 1, 0⟩ with
  | true => exact ⟨_, rfl⟩
  | false => exact ⟨_, rfl⟩

/-- A power of ten above the integer is not reached. -/
theorem not_reached {k : Nat} (hk : n < Decimal.tenTo k) :
    ¬Decimal.tenTo k <<< F.scale ≤ F.units rank * Decimal.tenTo 0 := by
  have hone : Decimal.tenTo 0 = 1 := rfl
  rw [hunits, hone, Nat.mul_one, Nat.shiftLeft_eq, Nat.not_le]
  exact Nat.mul_lt_mul_of_pos_right hk (Nat.two_pow_pos _)

variable (hn : n ≤ greatestSafe) (hpos : n ≠ 0)

include hn hpos

/-- The leading digit of a positive safe integer is among the first seventeen. -/
theorem leadingExponent_safe : 0 ≤ leadingExponent F rank ∧ leadingExponent F rank ≤ 16 := by
  have hlt : n < 2 ^ 53 := Nat.lt_of_le_of_lt hn (by decide)
  have hne : n * 2 ^ F.scale ≠ 0 := Nat.mul_ne_zero hpos (Nat.two_pow_pos _).ne'
  have hlow : F.scale ≤ (n * 2 ^ F.scale).log2 := by
    rw [Nat.le_log2 hne]
    exact Nat.le_mul_of_pos_left _ (Nat.pos_of_ne_zero hpos)
  have hhigh : (n * 2 ^ F.scale).log2 < 53 + F.scale := by
    rw [Nat.log2_lt hne, Nat.pow_add]
    exact Nat.mul_lt_mul_of_pos_right hlt (Nat.two_pow_pos _)
  have hten : n < Decimal.tenTo 17 := Nat.lt_of_le_of_lt hn (by decide)
  have hseventeen := not_reached hunits hten
  unfold leadingExponent
  rw [hunits] at hseventeen ⊢
  dsimp only
  generalize hestimate : (((n * 2 ^ F.scale).log2 : Int) - F.scale) * 30103 / 100000 = estimate
  have hbounds : 0 ≤ estimate ∧ estimate ≤ 15 := by omega
  clear hestimate
  split
  · next hreached =>
    -- an estimate of fifteen would mean that `10 ^ 17` is reached
    have hless : estimate ≠ 15 := by
      rintro rfl
      exact hseventeen (of_decide_eq_true hreached)
    omega
  · split <;> omega

include hp

/-- The shortest decimal of a positive safe integer is no fraction. -/
theorem shortest_exponent_nonneg : 0 ≤ (shortest F rank).exponent := by
  obtain ⟨hlead, hmost⟩ := leadingExponent_safe hunits hn hpos
  obtain ⟨d, hd⟩ := onGrid_zero hp hunits
  have hrank : rank ≠ 0 := by
    rintro rfl
    have hzero : F.units 0 = 0 := by simp only [Format.units, Nat.zero_div, if_true]
    rw [hunits] at hzero
    exact Nat.mul_ne_zero hpos (Nat.two_pow_pos _).ne' hzero
  have hdescending : ((List.range 17).map fun (k : Nat) =>
      leadingExponent F rank - (k : Int)).Pairwise (· > ·) := by
    rw [List.pairwise_map]
    exact List.pairwise_lt_range.imp fun hlt => by omega
  have hmem : (0 : Int) ∈ (List.range 17).map fun (k : Nat) => leadingExponent F rank - (k : Int) :=
    List.mem_map.mpr ⟨(leadingExponent F rank).toNat, List.mem_range.mpr (by omega), by omega⟩
  obtain ⟨grid, hgrid, found, hfound, hsearch⟩ := findSome?_descending hdescending hmem hd
  unfold shortest
  rw [if_neg hrank]
  dsimp only
  rw [hsearch, Option.getD_some, Decimal.normal]
  have hdropped := exponent_le_dropZeros (Decimal.digitsOf found.digits).length found
  rw [exponent_onGrid hfound] at hdropped
  omega

end Safe

/-- What the shortest decimal of a safe integer denotes is not above the greatest one, as
the next integer is rounded to a greater rank. -/
theorem shortest_value_le {rank n : Nat} (hunits : double.units rank = n * 2 ^ double.scale)
    (hn : n ≤ greatestSafe) (he : 0 ≤ (shortest double rank).exponent) :
    Decimal.tenTo (shortest double rank).exponent.toNat * (shortest double rank).digits ≤
      greatestSafe := by
  have hnext : double.units (nearestDecimal double ⟨greatestSafe + 1, 0⟩) =
      (greatestSafe + 1) * 2 ^ double.scale := by decide +kernel
  by_contra hgt
  have hrat : Decimal.toRat ⟨greatestSafe + 1, 0⟩ ≤ (shortest double rank).toRat := by
    have hexponent : ((shortest double rank).exponent.toNat : ℤ) =
        (shortest double rank).exponent := Int.toNat_of_nonneg he
    have hvalue : ((greatestSafe + 1 : ℕ) : ℚ) ≤
        ((Decimal.tenTo (shortest double rank).exponent.toNat *
          (shortest double rank).digits : ℕ) : ℚ) :=
      Nat.cast_le.mpr (Nat.succ_le_of_lt (Nat.not_le.mp hgt))
    rw [Nat.cast_mul, Decimal.cast_tenTo, hexponent] at hvalue
    simp only [Decimal.toRat, zpow_zero, mul_one]
    rwa [mul_comm]
  have hle : nearestDecimal double ⟨greatestSafe + 1, 0⟩ ≤ rank := by
    rw [← nearestDecimal_shortest double (by decide) rank]
    exact Decimal.nearestDecimal_mono double (by decide) hrat
  have hmono := units_mono double hle
  rw [hnext, hunits] at hmono
  have hcount := Nat.le_of_mul_le_mul_right hmono (Nat.two_pow_pos _)
  omega

/-- The shortest decimal of a safe integer other than zero is a natural number, and not
above the greatest one. -/
theorem Finite.Safe.shortest_spec {x : Finite double} (h : x.Safe) (h0 : x.rank ≠ 0) :
    0 ≤ (shortest double x.rank).exponent ∧
      Decimal.tenTo (shortest double x.rank).exponent.toNat * (shortest double x.rank).digits ≤
        greatestSafe := by
  obtain ⟨n, hn, hunits⟩ := h
  have hpos : n ≠ 0 := by
    rintro rfl
    have hrank := nearest_units double (by decide) x.rank
    have hzero : nearest double 0 1 = 0 := by decide
    rw [show double.units x.rank = 0 from hunits.trans (Nat.zero_mul _), hzero] at hrank
    exact h0 hrank.symm
  have he := shortest_exponent_nonneg (by decide) hunits hn hpos
  exact ⟨he, shortest_value_le hunits hn he⟩

end Settings.Binary
