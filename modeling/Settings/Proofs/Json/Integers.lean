import Settings.Proofs.Json.Places
import Settings.Proofs.Json.Valuation

/-!
# Integers at a place of a text

An integer stands at a place of a text when its plain decimal digits do, with a minus sign if
it is negative, and no later member hides the place. From `-2 ^ 63` to `2 ^ 64 - 1` the text
denotes this very integer there. Outside of these bounds it denotes a double, if it denotes
anything, and never another integer.
-/

namespace Settings.Json

/-- The integers that are stored as integers. -/
def Storable (n : Int) : Prop :=
  -2 ^ 63 ≤ n ∧ n ≤ 2 ^ 64 - 1

/-- These are the integers that numbers of stored text can be. -/
theorem storable_iff {n : Int} : Storable n ↔ leastInteger ≤ n ∧ n ≤ greatestInteger := by
  have hleast : leastInteger = -2 ^ 63 := by norm_num [leastInteger]
  have hgreatest : greatestInteger = 2 ^ 64 - 1 := by norm_num [greatestInteger]
  rw [Storable, hleast, hgreatest]

/-- An integer stands at a place of a text. -/
def Stands (text : String) (path : List Descent) (n : Int) : Prop :=
  ∃ tree, SpellsText text.toList tree ∧ tree.At path (.number (integerLiteral n))

/-- A storable integer denotes itself. -/
theorem denotes_of_storable {n : Int} (h : leastInteger ≤ n ∧ n ≤ greatestInteger) {v : Value}
    (hv : (Tree.number (integerLiteral n)).Denotes v) : v = .number (.integer n h) := by
  cases hv with
  | number hx =>
    obtain ⟨m, hm, rfl⟩ := hx
    rw [integerLiteral_number n h] at hm
    cases hm
    rfl

/-- An integer that is not storable denotes a double, if it denotes anything. -/
theorem denotes_of_not_storable {n : Int} (h : ¬Storable n) {v : Value}
    (hv : (Tree.number (integerLiteral n)).Denotes v) : ∃ x, v = .number (.float x) := by
  have hint : (integerLiteral n).integer? = none := by
    rw [integerLiteral_integer?, Number.ofInt?, dif_neg fun hrange => h (storable_iff.mpr hrange)]
  cases hv with
  | number hx =>
    obtain ⟨m, hm, rfl⟩ := hx
    obtain ⟨x, rfl⟩ := Literal.number_float hint hm
    exact ⟨x, rfl⟩

/-- The text of ordered settings has at every place the literal of the integer that is held
there. -/
theorem stands_encode {document : Document} (ho : (Value.object document).Ordered)
    {path : List Descent} {n : Int} {h : leastInteger ≤ n ∧ n ≤ greatestInteger}
    (hat : (Value.object document).at? path = some (.number (.integer n h))) :
    Stands (encode document) path n := by
  refine ⟨(Value.object document).tree, ?_, Tree.at_of_at? ho hat⟩
  have htext : (encode document).toList = (Value.object document).text := String.toList_ofList
  rw [htext]
  exact (Value.object document).spells.whole

end Settings.Json
