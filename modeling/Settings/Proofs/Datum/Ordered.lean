import Settings.Datum.Stored
import Settings.Proofs.Json.Scalars
import Settings.Proofs.Json.Shape

/-!
# Typed values become ordered values

The keys of a map and the names of fields are inserted one after another when a typed value
is stored, so the stored form is ordered in whatever order they came. Only a value of stored
text that is part of a typed value is taken over as it is; it has to be ordered itself.
-/

namespace Settings.Datum

open Json (Value Members bind_ok)

mutual

/-- Every value of stored text in a typed value is ordered. -/
def Ordered : Datum → Prop
  | .present d | .wrapped d | .tagged _ d => d.Ordered
  | .sequence ds => orderedAll ds
  | .map entries => orderedEntries entries
  | .record fields => orderedFields fields
  | .stored v => v.Ordered
  | _ => True

/-- The same of every value of a sequence. -/
def orderedAll : List Datum → Prop
  | [] => True
  | d :: rest => d.Ordered ∧ orderedAll rest

/-- The same of the value of every entry. -/
def orderedEntries : List (Datum × Datum) → Prop
  | [] => True
  | (_, d) :: rest => d.Ordered ∧ orderedEntries rest

/-- The same of the value of every field. -/
def orderedFields : List (String × Datum) → Prop
  | [] => True
  | (_, d) :: rest => d.Ordered ∧ orderedFields rest

end

/-- Members that entries denote are ordered when the values of the entries are. -/
theorem ordered_ofEntries {entries : List (String × Value)} (h : ∀ e ∈ entries, e.2.Ordered) :
    (Value.object (Members.ofEntries entries)).Ordered :=
  Json.ordered_object_iff.mpr
    ⟨Members.ascending_ofEntries entries, fun m hm => h m (Members.mem_of_mem_ofEntries hm)⟩

/-- A double is stored as a scalar. -/
theorem ordered_ofDouble (x : Binary Binary.double) : (ofDouble x).Ordered := by
  cases x <;> exact trivial

/-- An integer is stored as a scalar. -/
theorem ordered_ofInteger {n : Int} {v : Value} (h : ofInteger n = .ok v) : v.Ordered := by
  unfold ofInteger at h
  split at h <;> cases h
  exact trivial

/-- Bytes are stored as scalars. -/
theorem ordered_bytes (bs : List UInt8) : (Value.array (bs.map ofByte)).Ordered := by
  rw [Value.Ordered, Json.orderedItems_iff]
  intro v hv
  obtain ⟨b, _, rfl⟩ := List.mem_map.mp hv
  exact trivial

mutual

/-- The stored form of a typed value is ordered. -/
theorem ordered_toValue : ∀ {d : Datum} {v : Value}, d.Ordered → d.toValue = .ok v → v.Ordered
  | .bool _, _, _, h | .char _, _, _, h | .text _, _, _, h | .absent, _, _, h | .unit, _, _, h
  | .named _, _, _, h => by cases h; exact trivial
  | .integer _, _, _, h => ordered_ofInteger h
  | .single x, _, _, h => by cases h; exact ordered_ofDouble (x.convert Binary.double)
  | .double x, _, _, h => by cases h; exact ordered_ofDouble x
  | .bytes bs, _, _, h => by cases h; exact ordered_bytes bs
  | .present _, _, ho, h | .wrapped _, _, ho, h => by
    rw [toValue] at h
    rw [Ordered] at ho
    exact ordered_toValue ho h
  | .tagged name d, _, ho, h => by
    rw [toValue] at h
    rw [Ordered] at ho
    obtain ⟨v, hv, hobject⟩ := bind_ok h
    cases hobject
    refine Json.ordered_object_iff.mpr ⟨List.pairwise_singleton _ _, fun m hm => ?_⟩
    rw [List.mem_singleton.mp hm]
    exact ordered_toValue ho hv
  | .sequence ds, _, ho, h => by
    rw [toValue] at h
    rw [Ordered] at ho
    obtain ⟨items, hitems, harray⟩ := bind_ok h
    cases harray
    rw [Value.Ordered, Json.orderedItems_iff]
    exact ordered_toValues ho hitems
  | .map entries, _, ho, h => by
    rw [toValue] at h
    rw [Ordered] at ho
    obtain ⟨members, hmembers, hobject⟩ := bind_ok h
    cases hobject
    exact ordered_ofEntries (ordered_toEntries ho hmembers)
  | .record fields, _, ho, h => by
    rw [toValue] at h
    rw [Ordered] at ho
    obtain ⟨members, hmembers, hobject⟩ := bind_ok h
    cases hobject
    exact ordered_ofEntries (ordered_toFields ho hmembers)
  | .stored _, _, ho, h => by cases h; exact ho
  | .refusing _, _, _, h => by cases h

/-- The stored forms of a sequence are ordered. -/
theorem ordered_toValues : ∀ {ds : List Datum} {vs : List Value}, orderedAll ds →
    toValues ds = .ok vs → ∀ v ∈ vs, v.Ordered
  | [], _, _, h => by cases h; exact fun _ hv => absurd hv List.not_mem_nil
  | d :: rest, _, ho, h => by
    rw [toValues] at h
    obtain ⟨v, hv, h⟩ := bind_ok h
    obtain ⟨vs, hvs, h⟩ := bind_ok h
    cases h
    exact List.forall_mem_cons.mpr ⟨ordered_toValue ho.1 hv, ordered_toValues ho.2 hvs⟩

/-- The stored entries of a map have ordered values. -/
theorem ordered_toEntries : ∀ {entries : List (Datum × Datum)} {ms : List (String × Value)},
    orderedEntries entries → toEntries entries = .ok ms → ∀ m ∈ ms, m.2.Ordered
  | [], _, _, h => by cases h; exact fun _ hm => absurd hm List.not_mem_nil
  | (key, d) :: rest, _, ho, h => by
    rw [toEntries] at h
    obtain ⟨k, hk, h⟩ := bind_ok h
    obtain ⟨v, hv, h⟩ := bind_ok h
    obtain ⟨ms, hms, h⟩ := bind_ok h
    cases h
    exact List.forall_mem_cons.mpr ⟨ordered_toValue ho.1 hv, ordered_toEntries ho.2 hms⟩

/-- The stored fields of a record have ordered values. -/
theorem ordered_toFields : ∀ {fields : List (String × Datum)} {ms : List (String × Value)},
    orderedFields fields → toFields fields = .ok ms → ∀ m ∈ ms, m.2.Ordered
  | [], _, _, h => by cases h; exact fun _ hm => absurd hm List.not_mem_nil
  | (name, d) :: rest, _, ho, h => by
    rw [toFields] at h
    obtain ⟨v, hv, h⟩ := bind_ok h
    obtain ⟨ms, hms, h⟩ := bind_ok h
    cases h
    exact List.forall_mem_cons.mpr ⟨ordered_toValue ho.1 hv, ordered_toFields ho.2 hms⟩

end

end Settings.Datum
