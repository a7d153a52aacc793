import Settings.Proofs.Binary.Cutoffs
import Settings.Proofs.Binary.Exact

/-!
# Safe integers come back from a script

A script holds every number as a double. A safe integer is a double, the script writes that
double as a literal of the same integer, and stored text reads the literal as the integer
again. So a safe integer survives the way to a script and back, while greater integers may
come back as their neighbours.
-/

namespace Settings.Json

open Binary (double greatestSafe nearestDecimal)

/-- A safe integer is handed to a script as a finite double whose rank is that of the
integer. -/
theorem toDouble_of_safe {n : Int} (h : n.natAbs ≤ greatestSafe) :
    ∃ x : Binary.Finite double, (integerLiteral n).toDouble = .finite x ∧
      x.negative = decide (n < 0) ∧ x.rank = nearestDecimal double ⟨n.natAbs, 0⟩ := by
  have hrange : leastInteger ≤ n ∧ n ≤ greatestInteger := by
    unfold greatestSafe at h
    unfold leastInteger greatestInteger
    omega
  exact toDouble_of_stored hrange

/-- Decimals that denote one number are rounded to one rank. -/
theorem nearestDecimal_eq_of_toRat {a b : Decimal} (h : a.toRat = b.toRat) :
    nearestDecimal double a = nearestDecimal double b :=
  Nat.le_antisymm (Decimal.nearestDecimal_mono double double_precision_pos h.le)
    (Decimal.nearestDecimal_mono double double_precision_pos h.ge)

/-- The shortest decimal of a positive safe integer denotes the integer. -/
theorem shortest_value_eq {m rank : Nat} (h : m ≤ greatestSafe)
    (hrank : rank = nearestDecimal double ⟨m, 0⟩) (h0 : rank ≠ 0) :
    0 ≤ (Binary.shortest double rank).exponent ∧
      Decimal.tenTo (Binary.shortest double rank).exponent.toNat *
        (Binary.shortest double rank).digits = m := by
  have hunits : double.units rank = m * 2 ^ double.scale := by
    rw [hrank, Binary.units_nearestDecimal h]
  have hpos : m ≠ 0 := by
    intro hm
    rw [hm, nearestDecimal_zero] at hrank
    exact h0 hrank
  have he := Binary.shortest_exponent_nonneg double_precision_pos hunits h hpos
  have hle := Binary.shortest_value_le hunits h he
  have hshortest := Binary.nearestDecimal_shortest double double_precision_pos rank
  generalize Binary.shortest double rank = d at he hle hshortest
  have hrat : Decimal.toRat ⟨Decimal.tenTo d.exponent.toNat * d.digits, 0⟩ = d.toRat := by
    have hexponent : (0 : ℤ) + d.exponent.toNat = d.exponent := by omega
    rw [Decimal.toRat_shift, hexponent]
  -- both are rounded to the same rank, and rounding is exact on both
  have hsame : nearestDecimal double ⟨Decimal.tenTo d.exponent.toNat * d.digits, 0⟩ =
      nearestDecimal double ⟨m, 0⟩ := by
    rw [nearestDecimal_eq_of_toRat hrat, hshortest, hrank]
  exact ⟨he, Binary.nearestDecimal_inj hle h hsame⟩

/-- What a script writes for a safe integer is read as that integer. -/
theorem scriptLiteral_number {n : Int} (h : n.natAbs ≤ greatestSafe) :
    ∃ x : Binary.Finite double, (integerLiteral n).toDouble = .finite x ∧
      ∃ hrange, (scriptLiteral x).number = .ok (.integer n hrange) := by
  obtain ⟨x, hx, hnegative, hrank⟩ := toDouble_of_safe h
  refine ⟨x, hx, ?_⟩
  by_cases h0 : x.rank = 0
  · have hzero : n.natAbs = 0 := by
      have hranks : nearestDecimal double ⟨n.natAbs, 0⟩ = nearestDecimal double ⟨0, 0⟩ := by
        rw [← hrank, h0, nearestDecimal_zero]
      exact Binary.nearestDecimal_inj h (Nat.zero_le _) hranks
    obtain rfl : n = 0 := Int.natAbs_eq_zero.mp hzero
    have hrange : leastInteger ≤ 0 ∧ 0 ≤ greatestInteger := by decide
    refine ⟨hrange, ?_⟩
    rw [scriptLiteral, if_pos h0, integerLiteral_number 0 hrange]
  · obtain ⟨he, hvalue⟩ := shortest_value_eq h hrank h0
    have hle : Decimal.tenTo (Binary.shortest double x.rank).exponent.toNat *
        (Binary.shortest double x.rank).digits ≤ greatestSafe := by omega
    have hdigits := shortest_digits_ne_zero h0
    have hliteral : scriptLiteral x = ⟨x.negative,
        Decimal.digitsOf (Binary.shortest double x.rank).digits ++
          Decimal.zeros (Binary.shortest double x.rank).exponent.toNat, [], none⟩ := by
      rw [scriptLiteral, if_neg h0, scriptNumber_literal x.negative he hle hdigits]
    have hwhole : Decimal.valueOf (scriptLiteral x).whole = n.natAbs := by
      rw [hliteral, Decimal.valueOf_append_zeros, Decimal.valueOf_digitsOf, hvalue]
    have hplain : (scriptLiteral x).Plain := by
      refine ⟨by rw [hliteral], by rw [hliteral], ?_⟩
      rw [hwhole]
      exact h
    have hsign : (scriptLiteral x).negative = decide (n < 0) := by rw [hliteral, hnegative]
    have hminus : (scriptLiteral x).negative = true →
        Decimal.valueOf (scriptLiteral x).whole ≠ 0 := by
      rw [hsign, hwhole, decide_eq_true_eq]
      omega
    obtain ⟨k, hrange, hnumber, hksign, hkvalue⟩ := hplain.number_integer hminus
    obtain rfl : k = n := by
      have hsame : decide (k < 0) = decide (n < 0) := hksign.trans hsign
      rw [decide_eq_decide] at hsame
      omega
    exact ⟨hrange, hnumber⟩

/-! ### Values whose numbers are safe integers -/

mutual

/-- The numbers in a value. -/
def Value.numbers : Value → List Number
  | .number n => [n]
  | .array items => numbersOfItems items
  | .object members => numbersOfMembers members
  | _ => []

/-- The numbers in items. -/
def numbersOfItems : List Value → List Number
  | [] => []
  | item :: rest => item.numbers ++ numbersOfItems rest

/-- The numbers in the values of members. -/
def numbersOfMembers : List (String × Value) → List Number
  | [] => []
  | (_, value) :: rest => value.numbers ++ numbersOfMembers rest

end

/-- A number that is an integer of at most the greatest safe magnitude. -/
def Number.SafeInteger : Number → Prop
  | .integer n _ => n.natAbs ≤ greatestSafe
  | .float _ => False

/-- All numbers of a value are safe integers. -/
def Value.SafeIntegers (v : Value) : Prop :=
  ∀ n ∈ v.numbers, n.SafeInteger

/-- The numbers of an array are safe integers when those of each item are. -/
theorem safeIntegers_array_iff {items : List Value} :
    (Value.array items).SafeIntegers ↔ ∀ v ∈ items, v.SafeIntegers := by
  rw [Value.SafeIntegers, Value.numbers]
  induction items with
  | nil => simp only [numbersOfItems, List.not_mem_nil, false_implies, implies_true]
  | cons v vs ih =>
    rw [numbersOfItems, List.forall_mem_append, ih, List.forall_mem_cons, Value.SafeIntegers]

/-- The numbers of an object are safe integers when those of each member are. -/
theorem safeIntegers_object_iff {members : List (String × Value)} :
    (Value.object members).SafeIntegers ↔ ∀ m ∈ members, m.2.SafeIntegers := by
  rw [Value.SafeIntegers, Value.numbers]
  induction members with
  | nil => simp only [numbersOfMembers, List.not_mem_nil, false_implies, implies_true]
  | cons m ms ih =>
    obtain ⟨key, value⟩ := m
    rw [numbersOfMembers, List.forall_mem_append, ih, List.forall_mem_cons, Value.SafeIntegers]

end Settings.Json
