import Settings.Proofs.Json.Nesting

/-!
# Which values are read back as they were

Integers, strings and keys always survive. A double is written with the fewest
digits that determine it and read with one rounding for its digits and another
for its power of ten, so it may come back as a neighbour. A value survives
exactly when each of its doubles does.
-/

namespace Settings.Json

open Binary (double)

/-- The text of a double is read as the same double. -/
def ReadsBack (x : Binary.Finite double) : Prop :=
  read x.storedText = .ok (.number (.float x))

mutual

/-- The doubles that occur in a value. -/
def Value.floats : Value → List (Binary.Finite double)
  | .number (.float x) => [x]
  | .array items => floatsOfItems items
  | .object members => floatsOfMembers members
  | _ => []

/-- The doubles that occur in items. -/
def floatsOfItems : List Value → List (Binary.Finite double)
  | [] => []
  | item :: rest => item.floats ++ floatsOfItems rest

/-- The doubles that occur in the values of members. -/
def floatsOfMembers : List (String × Value) → List (Binary.Finite double)
  | [] => []
  | (_, value) :: rest => value.floats ++ floatsOfMembers rest

end

/-- The text of a double is read as a double, perhaps another one. -/
theorem read_storedText (x : Binary.Finite double) :
    read x.storedText = .ok (.number (.float (rereadFloat x))) := by
  have hdepth : (Value.number (.float x)).depth ≤ greatestDepth := Nat.zero_le _
  have h := whole_text hdepth
  rw [Value.text, Number.text, Value.reread, Number.reread] at h
  exact h

/-- A double is read back when it is what its text is read as. -/
theorem readsBack_iff {x : Binary.Finite double} : ReadsBack x ↔ rereadFloat x = x := by
  unfold ReadsBack
  rw [read_storedText]
  constructor
  · intro h
    injection h with h
    injection h with h
    injection h
  · intro h
    rw [h]

/-- Rereading keeps the keys, so members stay in order. -/
theorem ascending_rereadMembers {ms : List (String × Value)} (h : Members.Ascending ms) :
    Members.Ascending (rereadMembers ms) := by
  rw [rereadMembers_eq]
  exact List.pairwise_map.mpr h

/-- An ordered object is reread member by member. -/
theorem reread_object {ms : List (String × Value)} (h : Members.Ascending ms) :
    (Value.object ms).reread = .object (rereadMembers ms) := by
  rw [Value.reread, Members.ofEntries_of_ascending (ascending_rereadMembers h)]

mutual

/-- An ordered value is reread as itself when each of its doubles is. -/
theorem Value.reread_eq_iff : ∀ {v : Value}, v.Ordered →
    (v.reread = v ↔ ∀ x ∈ v.floats, ReadsBack x)
  | .null, _ | .bool _, _ | .string _, _ | .number (.integer _ _), _ =>
    iff_of_true rfl fun _ h => absurd h List.not_mem_nil
  | .number (.float x), _ => by
    rw [Value.floats, List.forall_mem_singleton, readsBack_iff, Value.reread, Number.reread,
      Value.number.injEq, Number.float.injEq]
  | .array vs, h => by
    rw [Value.Ordered] at h
    rw [Value.reread, Value.floats, Value.array.injEq]
    exact rereadItems_eq_iff h
  | .object ms, h => by
    rw [Value.Ordered] at h
    rw [reread_object h.1, Value.floats, Value.object.injEq]
    exact rereadMembers_eq_iff h.2

/-- Ordered items are reread as themselves when each of their doubles is. -/
theorem rereadItems_eq_iff : ∀ {vs : List Value}, orderedItems vs →
    (rereadItems vs = vs ↔ ∀ x ∈ floatsOfItems vs, ReadsBack x)
  | [], _ => iff_of_true rfl fun _ h => absurd h List.not_mem_nil
  | v :: vs, h => by
    rw [orderedItems] at h
    rw [rereadItems, floatsOfItems, List.cons.injEq, List.forall_mem_append,
      Value.reread_eq_iff h.1, rereadItems_eq_iff h.2]

/-- Ordered members are reread as themselves when each of their doubles is. -/
theorem rereadMembers_eq_iff : ∀ {ms : List (String × Value)}, orderedMembers ms →
    (rereadMembers ms = ms ↔ ∀ x ∈ floatsOfMembers ms, ReadsBack x)
  | [], _ => iff_of_true rfl fun _ h => absurd h List.not_mem_nil
  | (k, v) :: ms, h => by
    rw [orderedMembers] at h
    rw [rereadMembers, floatsOfMembers, List.cons.injEq, List.forall_mem_append, Prod.mk.injEq,
      Value.reread_eq_iff h.1, rereadMembers_eq_iff h.2]
    exact and_congr_left' (and_iff_right rfl)

end

/-! ### A double that survives and one that does not -/

/-- One half. -/
def oneHalf : Binary.Finite double := ⟨false, 4602678819172646912, by decide⟩

/-- One half is read back. -/
theorem readsBack_oneHalf : ReadsBack oneHalf :=
  readsBack_iff.mpr (by decide +kernel)

/-- The double that is written as `1e-30`. -/
def tenToMinus30 : Binary.Finite double := ⟨false, 4158027847206421152, by decide⟩

/-- Ten to the minus thirty is read as its lower neighbour. -/
theorem not_readsBack_tenToMinus30 : ¬ReadsBack tenToMinus30 :=
  mt readsBack_iff.mp (by decide +kernel)

end Settings.Json
