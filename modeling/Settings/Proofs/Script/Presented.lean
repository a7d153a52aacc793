import Settings.Proofs.Binary.Cutoffs
import Settings.Proofs.Binary.Exact
import Settings.Proofs.Script.Enumeration

/-!
# What a script sees of a stored value

A stored value is handed to a script in the same shape, at every level: texts as their 16-bit
units, items in their order, and the members of an object as properties under the same keys, in
the order of enumeration. A number is a double for a script. A stored double is seen as it is and
an integer as the double nearest to it, which is the integer itself as long as it is safe. What
is seen is said here without the text that a value is handed over as, and it is determined by the
value, so nothing else can show: neither how the value came to be stored nor in which order its
keys were set.
-/

namespace Settings.Script

open Binary (double greatestSafe nearestDecimal)
open Json (Members)

/-- A double is what a script sees of an integer. -/
structure PresentsInteger (n : Int) (x : Binary.Finite double) : Prop where
  /-- It has the sign of the integer, and zero is not negative. -/
  negative_eq : x.negative = decide (n < 0)
  /-- No double is nearer to the integer. -/
  rank_eq : x.rank = nearestDecimal double ⟨n.natAbs, 0⟩
  /-- A safe integer is the exact value. -/
  units_eq : n.natAbs ≤ greatestSafe → x.units = n.natAbs * 2 ^ double.scale

/-- A property is what a script sees of a member: the key in units, and what is seen of the
value. -/
inductive PresentsMember (R : Json.Value → Value → Prop) :
    String × Json.Value → Text.Units × Value → Prop where
  /-- The value is seen as the value of the property. -/
  | mk {key : String} {w : Json.Value} {v : Value} (h : R w v) :
    PresentsMember R (key, w) (Text.unitsOf key, v)

/-- A script value is what a script sees of a stored value. -/
inductive Presents : Json.Value → Value → Prop where
  /-- The null value. -/
  | null : Presents .null .null
  /-- A truth value. -/
  | bool (b : Bool) : Presents (.bool b) (.bool b)
  /-- An integer. -/
  | integer {n : Int} {hrange : Json.leastInteger ≤ n ∧ n ≤ Json.greatestInteger}
    {x : Binary.Finite double} (h : PresentsInteger n x) :
    Presents (.number (.integer n hrange)) (.number (.finite x))
  /-- A double. -/
  | float (x : Binary.Finite double) : Presents (.number (.float x)) (.number (.finite x))
  /-- A text. -/
  | string (s : String) : Presents (.string s) (.string (Text.unitsOf s))
  /-- As many items in the same order. -/
  | array {items : List Json.Value} {values : List Value}
    (h : List.Forall₂ Presents items values) : Presents (.array items) (.array values)
  /-- Properties for exactly the members, one by one in the order of enumeration. -/
  | object {members enumerated : Json.Document} {properties : List (Text.Units × Value)}
    (hperm : enumerated.Perm members) (henumerated : Enumerated enumerated)
    (h : List.Forall₂ (PresentsMember Presents) enumerated properties) :
    Presents (.object members) (.object properties)

/-! ### Only one thing is seen -/

/-- One double is seen of an integer. -/
theorem PresentsInteger.unique {n : Int} {x y : Binary.Finite double} (hx : PresentsInteger n x)
    (hy : PresentsInteger n y) : x = y := by
  obtain ⟨negative, rank, hlt⟩ := x
  obtain ⟨negative', rank', hlt'⟩ := y
  obtain rfl : negative = negative' := hx.negative_eq.trans hy.negative_eq.symm
  obtain rfl : rank = rank' := hx.rank_eq.trans hy.rank_eq.symm
  rfl

/-- If one thing is related to each element, one list is related to the list. -/
theorem forall₂_unique {α β : Type} {R : α → β → Prop} {xs : List α} {ys zs : List β}
    (h : ∀ x ∈ xs, ∀ y z, R x y → R x z → y = z) (hy : List.Forall₂ R xs ys)
    (hz : List.Forall₂ R xs zs) : ys = zs := by
  have heq : List.Forall₂ (· = ·) ys zs := forall₂_join h hy hz
  rwa [List.forall₂_eq_eq_eq] at heq

/-- A script sees one thing of a stored value. -/
theorem Presents.unique {w : Json.Value} {v u : Value} (hv : Presents w v) (hu : Presents w u) :
    v = u := by
  induction w using Json.Value.induct generalizing v u with
  | null => cases hv; cases hu; rfl
  | bool b => cases hv; cases hu; rfl
  | string s => cases hv; cases hu; rfl
  | number n =>
    cases hv with
    | integer hx =>
      cases hu with
      | integer hy => rw [hx.unique hy]
    | float x => cases hu; rfl
  | array items ih =>
    cases hv with
    | array hvs =>
      cases hu with
      | array hus => rw [forall₂_unique (fun w hw _ _ => ih w hw) hvs hus]
  | object members ih =>
    cases hv with
    | object hperm he hps =>
      cases hu with
      | object hperm' he' hqs =>
        cases he.unique he' (hperm.trans hperm'.symm)
        refine congrArg Value.object (forall₂_unique (fun m hm p q hp hq => ?_) hps hqs)
        cases hp with
        | mk hp =>
          cases hq with
          | mk hq => rw [ih _ (hperm.mem_iff.mp hm) hp hq]

/-! ### What is shown is seen -/

/-- The number of stored text is seen as the double that it is shown as. -/
theorem presents_number (n : Json.Number) : Presents (.number n) (.number n.literal.toDouble) := by
  cases n with
  | integer n hrange =>
    obtain ⟨x, hx, hnegative, hrank⟩ := Json.toDouble_of_stored hrange
    rw [Json.Number.literal, hx]
    refine .integer ⟨hnegative, hrank, fun hsafe => ?_⟩
    rw [Binary.Finite.units, hrank, Binary.units_nearestDecimal hsafe]
  | float x =>
    rw [Json.Number.literal, Json.toDouble_storedLiteral]
    exact .float x

/-- What an ordered value is shown as is what a script sees of it. -/
theorem presents_shown {w : Json.Value} (h : w.Ordered) : Presents w (shown w) := by
  induction w using Json.Value.induct with
  | null => exact .null
  | bool b => exact .bool b
  | number n => exact presents_number n
  | string s => exact .string s
  | array items ih =>
    have hitems := Json.orderedItems_iff.mp h
    rw [shown, shownItems_eq]
    refine .array (List.forall₂_map_right_iff.mpr (List.forall₂_same.mpr fun w hw => ?_))
    exact ih w hw (hitems w hw)
  | object members ih =>
    obtain ⟨hasc, hmembers⟩ := Json.ordered_object_iff.mp h
    obtain ⟨enumerated, hperm, henumerated, hdefined⟩ := exists_enumerated hasc
    have hshown : shown (.object members) = .object (enumerated.map shownMember) := by
      rw [shown, shownMembers_eq, ← hdefined]
      rfl
    rw [hshown]
    refine .object hperm henumerated
      (List.forall₂_map_right_iff.mpr (List.forall₂_same.mpr fun m hm => ?_))
    have hm' := hperm.mem_iff.mp hm
    exact .mk (ih m hm' (hmembers m hm'))

end Settings.Script
