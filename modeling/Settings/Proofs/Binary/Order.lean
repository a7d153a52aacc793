import Mathlib.Tactic.Linarith
import Mathlib.Tactic.Ring
import Settings.Binary.Rounding

/-!
# Rounding keeps the order

A quotient that is not greater is not rounded to a greater rank, whatever the
numerators and denominators are in which the two are given. Products and
quotients of ranks inherit this, so a bound on a result of the arithmetic need
only be evaluated at one extreme pair of arguments.
-/

namespace Settings.Binary

/-- The number of magnitudes in a binade is a power of two. -/
theorem leading_eq (F : Format) : F.leading = 2 ^ (F.precision - 1) := by
  simp only [Format.leading, Nat.shiftLeft_eq, Nat.one_mul]

/-- With one denominator, the greater numerator has the greater rounded
quotient. -/
theorem roundTiesEven_le_of_le {m n : Nat} (d : Nat) (h : m ≤ n) :
    roundTiesEven m d ≤ roundTiesEven n d := by
  have hq : m / d ≤ n / d := Nat.div_le_div_right h
  rcases Nat.lt_or_eq_of_le hq with hlt | heq
  · rcases roundTiesEven_cases m d with hm | hm <;>
      rcases roundTiesEven_cases n d with hn | hn <;> omega
  · have hm := Nat.div_add_mod m d
    have hn := Nat.div_add_mod n d
    have hr : m % d ≤ n % d := by rw [heq] at hm; omega
    unfold roundTiesEven
    dsimp only
    rw [heq]
    split <;> split <;> (try split) <;> (try split) <;> omega

/-- The greater quotient has the greater rounded quotient. -/
theorem roundTiesEven_mono {a b c d : Nat} (hb : 0 < b) (hd : 0 < d) (h : a * d ≤ c * b) :
    roundTiesEven a b ≤ roundTiesEven c d := by
  calc roundTiesEven a b = roundTiesEven (a * d) (b * d) := (roundTiesEven_scale a b d hd).symm
    _ ≤ roundTiesEven (c * b) (b * d) := roundTiesEven_le_of_le _ h
    _ = roundTiesEven (c * b) (d * b) := by rw [Nat.mul_comm b d]
    _ = roundTiesEven c d := roundTiesEven_scale c d b hb

/-- A quotient is rounded to nothing above an integer that bounds it. -/
theorem roundTiesEven_le {a b n : Nat} (hb : 0 < b) (h : a ≤ n * b) : roundTiesEven a b ≤ n := by
  calc roundTiesEven a b ≤ roundTiesEven (n * b) b := roundTiesEven_le_of_le b h
    _ = n := roundTiesEven_exact n b hb

/-- A quotient is rounded to nothing below an integer that it reaches. -/
theorem le_roundTiesEven {a b n : Nat} (hb : 0 < b) (h : n * b ≤ a) : n ≤ roundTiesEven a b := by
  calc n = roundTiesEven (n * b) b := (roundTiesEven_exact n b hb).symm
    _ ≤ roundTiesEven a b := roundTiesEven_le_of_le b h

/-- How far the binade of a quotient lies above the least one. -/
def binade (F : Format) (a b : Nat) : Nat :=
  (a / b).log2 + 1 - F.precision

/-- Rounding in the binade of a quotient, with the ranks below it counted. -/
theorem nearest_eq (F : Format) (a b : Nat) :
    nearest F a b =
      binade F a b * F.leading + roundTiesEven a (b * 2 ^ binade F a b) := by
  simp only [nearest, binade, Nat.shiftLeft_eq]

/-- A quotient does not pass the end of its binade. -/
theorem nearest_le_binade (F : Format) (hp : 0 < F.precision) {a b : Nat} (hb : 0 < b) :
    nearest F a b ≤ (binade F a b + 2) * F.leading := by
  have hlog : (a / b).log2 + 1 ≤ F.precision - 1 + 1 + binade F a b := by
    unfold binade; omega
  have hq : a / b < 2 ^ (F.precision - 1 + 1 + binade F a b) :=
    Nat.lt_of_lt_of_le Nat.lt_log2_self (Nat.pow_le_pow_right (by omega) hlog)
  have ha : a ≤ 2 * F.leading * (b * 2 ^ binade F a b) := by
    have h1 := (Nat.div_lt_iff_lt_mul hb).mp hq
    calc a ≤ 2 ^ (F.precision - 1 + 1 + binade F a b) * b := h1.le
      _ = 2 * F.leading * (b * 2 ^ binade F a b) := by
        rw [leading_eq, Nat.pow_add, Nat.pow_succ]; ring
  have hr := roundTiesEven_le (Nat.mul_pos hb (Nat.two_pow_pos _)) ha
  rw [nearest_eq]
  calc binade F a b * F.leading + roundTiesEven a (b * 2 ^ binade F a b)
      ≤ binade F a b * F.leading + 2 * F.leading := by omega
    _ = (binade F a b + 2) * F.leading := by ring

/-- A quotient above the least binade reaches the first rank of its binade. -/
theorem binade_le_nearest (F : Format) (hp : 0 < F.precision) {a b : Nat} (hb : 0 < b)
    (h : 0 < binade F a b) :
    (binade F a b + 1) * F.leading ≤ nearest F a b := by
  have hlog : F.precision - 1 + binade F a b ≤ (a / b).log2 := by
    unfold binade at h ⊢; omega
  have hne : a / b ≠ 0 := by
    intro h0
    unfold binade at h
    rw [h0, Nat.log2_zero] at h
    omega
  have hq : 2 ^ (F.precision - 1 + binade F a b) ≤ a / b := (Nat.le_log2 hne).mp hlog
  have ha : F.leading * (b * 2 ^ binade F a b) ≤ a := by
    calc F.leading * (b * 2 ^ binade F a b)
        = 2 ^ (F.precision - 1 + binade F a b) * b := by rw [leading_eq, Nat.pow_add]; ring
      _ ≤ a := (Nat.le_div_iff_mul_le hb).mp hq
  have hr := le_roundTiesEven (Nat.mul_pos hb (Nat.two_pow_pos _)) ha
  rw [nearest_eq]
  calc (binade F a b + 1) * F.leading = binade F a b * F.leading + F.leading := by ring
    _ ≤ binade F a b * F.leading + roundTiesEven a (b * 2 ^ binade F a b) := by omega

/-- The greater quotient has the greater nearest rank. -/
theorem nearest_mono (F : Format) (hp : 0 < F.precision) {a b c d : Nat} (hb : 0 < b)
    (hd : 0 < d) (h : a * d ≤ c * b) : nearest F a b ≤ nearest F c d := by
  have hq : a / b ≤ c / d := by
    rw [Nat.le_div_iff_mul_le hd]
    have h1 : a / b * d * b ≤ c * b := by
      calc a / b * d * b = a / b * b * d := Nat.mul_right_comm _ _ _
        _ ≤ a * d := Nat.mul_le_mul_right d (Nat.div_mul_le_self a b)
        _ ≤ c * b := h
    exact Nat.le_of_mul_le_mul_right h1 hb
  have hs : binade F a b ≤ binade F c d := by
    have hl : (a / b).log2 ≤ (c / d).log2 := by
      by_cases h0 : a / b = 0
      · rw [h0, Nat.log2_zero]; exact Nat.zero_le _
      · rw [Nat.le_log2 (fun hz => by rw [hz] at hq; exact h0 (Nat.le_zero.mp hq))]
        exact (Nat.log2_self_le h0).trans hq
    unfold binade
    omega
  rcases Nat.lt_or_eq_of_le hs with hlt | heq
  · calc nearest F a b ≤ (binade F a b + 2) * F.leading := nearest_le_binade F hp hb
      _ ≤ (binade F c d + 1) * F.leading := Nat.mul_le_mul_right _ (by omega)
      _ ≤ nearest F c d := binade_le_nearest F hp hd (by omega)
  · rw [nearest_eq, nearest_eq, heq]
    refine Nat.add_le_add_left (roundTiesEven_mono (Nat.mul_pos hb (Nat.two_pow_pos _))
      (Nat.mul_pos hd (Nat.two_pow_pos _)) ?_) _
    calc a * (d * 2 ^ binade F c d) = a * d * 2 ^ binade F c d := (Nat.mul_assoc _ _ _).symm
      _ ≤ c * b * 2 ^ binade F c d := Nat.mul_le_mul_right _ h
      _ = c * (b * 2 ^ binade F c d) := Nat.mul_assoc _ _ _

/-! ### Arithmetic on ranks -/

/-- The greater rank has the greater exact value. -/
theorem units_mono (F : Format) {r s : Nat} (h : r ≤ s) : F.units r ≤ F.units s := by
  have hl : 0 < F.leading := by rw [leading_eq]; exact Nat.two_pow_pos _
  have hq : r / F.leading ≤ s / F.leading := Nat.div_le_div_right h
  have hr := Nat.div_add_mod r F.leading
  have hs := Nat.div_add_mod s F.leading
  have hrm := Nat.mod_lt r hl
  have hsm := Nat.mod_lt s hl
  unfold Format.units
  simp only [Nat.shiftLeft_eq]
  by_cases hr0 : r / F.leading = 0
  · rw [if_pos hr0]
    by_cases hs0 : s / F.leading = 0
    · rw [if_pos hs0]; exact h
    · rw [if_neg hs0]
      rw [hr0, Nat.mul_zero] at hr
      calc r ≤ (F.leading + s % F.leading) * 1 := by omega
        _ ≤ (F.leading + s % F.leading) * 2 ^ (s / F.leading - 1) :=
          Nat.mul_le_mul_left _ (Nat.two_pow_pos _)
  · have hs0 : s / F.leading ≠ 0 := fun h0 => hr0 (Nat.le_zero.mp (h0 ▸ hq))
    rw [if_neg hr0, if_neg hs0]
    rcases Nat.lt_or_eq_of_le hq with hlt | heq
    · have h1 : 0 < r / F.leading := Nat.pos_of_ne_zero hr0
      have he : r / F.leading - 1 + 1 ≤ s / F.leading - 1 := by
        rw [Nat.sub_add_cancel h1]
        exact Nat.le_sub_one_of_lt hlt
      calc (F.leading + r % F.leading) * 2 ^ (r / F.leading - 1)
          ≤ F.leading * 2 * 2 ^ (r / F.leading - 1) := Nat.mul_le_mul_right _ (by omega)
        _ = F.leading * 2 ^ (r / F.leading - 1 + 1) := by rw [Nat.pow_succ]; ring
        _ ≤ F.leading * 2 ^ (s / F.leading - 1) :=
          Nat.mul_le_mul_left _ (Nat.pow_le_pow_right (by omega) he)
        _ ≤ (F.leading + s % F.leading) * 2 ^ (s / F.leading - 1) :=
          Nat.mul_le_mul_right _ (Nat.le_add_right _ _)
    · rw [heq] at hr ⊢
      exact Nat.mul_le_mul_right _ (by omega)

/-- The greater factors have the greater product. -/
theorem productRank_mono (F : Format) (hp : 0 < F.precision) {a b c d : Nat} (h : a ≤ b)
    (h' : c ≤ d) : productRank F a c ≤ productRank F b d := by
  have hs : 0 < 1 <<< F.scale := by rw [Nat.shiftLeft_eq, Nat.one_mul]; exact Nat.two_pow_pos _
  refine nearest_mono F hp hs hs (Nat.mul_le_mul_right _ ?_)
  exact Nat.mul_le_mul (units_mono F h) (units_mono F h')

/-- Division by one or more does not raise a rank. -/
theorem quotientRank_le (F : Format) (hp : 0 < F.precision) (a : Nat) {b : Nat}
    (h : 2 ^ F.scale ≤ F.units b) : quotientRank F a b ≤ a := by
  have hb : 0 < F.units b := Nat.lt_of_lt_of_le (Nat.two_pow_pos _) h
  calc quotientRank F a b ≤ nearest F (F.units a) 1 := by
        refine nearest_mono F hp hb Nat.one_pos ?_
        rw [Nat.mul_one, Nat.shiftLeft_eq]
        exact Nat.mul_le_mul_left _ h
    _ = a := nearest_units F hp a

end Settings.Binary
