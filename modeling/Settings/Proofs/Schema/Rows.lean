import Settings.Proofs.Schema.Exact

/-!
# Exact readings of rows

A list, a tuple and an array are stored as the array of their stored items, and items are
read one by one. Rows are therefore read exactly when their items are. A tuple is read from
as many values as it has parts; that there are not too many is asked after all parts were
read, so it is a condition of its own here.
-/

namespace Settings.Schema

open Json (Value bind_ok)

/-! ### Lists -/

/-- A row is stored item by item. -/
theorem toValues_ok_iff {ds : List Datum} {ws : List Value} :
    Datum.toValues ds = .ok ws ↔ List.Forall₂ (fun d w => d.toValue = .ok w) ds ws := by
  induction ds generalizing ws with
  | nil =>
    rw [List.forall₂_nil_left_iff]
    exact ⟨fun h => by cases h; rfl, fun h => by rw [h]; rfl⟩
  | cons d ds ih =>
    rw [List.forall₂_cons_left_iff]
    constructor
    · intro h
      rw [Datum.toValues] at h
      obtain ⟨w, hw, h⟩ := bind_ok h
      obtain ⟨rest, hrest, h⟩ := bind_ok h
      cases h
      exact ⟨w, rest, hw, ih.mp hrest, rfl⟩
    · rintro ⟨w, rest, hw, hrest, rfl⟩
      rw [Datum.toValues, hw, ih.mpr hrest]
      rfl

/-- Items are read one by one. -/
theorem readItems_ok_iff {item : Reading Value} {ws : List Value} {ds : List Datum} :
    readItems item ws = .ok ds ↔ List.Forall₂ (fun w d => item w = .ok d) ws ds := by
  induction ws generalizing ds with
  | nil =>
    rw [List.forall₂_nil_left_iff]
    exact ⟨fun h => by cases h; rfl, fun h => by rw [h]; rfl⟩
  | cons w ws ih =>
    rw [List.forall₂_cons_left_iff]
    constructor
    · intro h
      rw [readItems] at h
      obtain ⟨d, hd, h⟩ := bind_ok h
      obtain ⟨rest, hrest, h⟩ := bind_ok h
      cases h
      exact ⟨d, rest, hd, ih.mp hrest, rfl⟩
    · rintro ⟨d, rest, hd, hrest, rfl⟩
      rw [readItems, hd, ih.mpr hrest]
      rfl

/-- A sequence is stored as the array of its stored items. -/
theorem toValue_sequence {ds : List Datum} {w : Value} :
    (Datum.sequence ds).toValue = .ok w ↔ ∃ ws, Datum.toValues ds = .ok ws ∧ w = .array ws := by
  rw [Datum.toValue]
  constructor
  · intro h
    obtain ⟨ws, hws, h⟩ := bind_ok h
    cases h
    exact ⟨ws, hws, rfl⟩
  · rintro ⟨ws, hws, rfl⟩
    rw [hws]
    rfl

/-- Items that are read exactly make rows that are. -/
theorem exact_items {item : Reading Value} {P : Datum → Prop} (h : Exact item P)
    {ws : List Value} {ds : List Datum} (ho : ∀ w ∈ ws, w.Ordered)
    (hread : readItems item ws = .ok ds) : (∀ d ∈ ds, P d) ∧ Datum.toValues ds = .ok ws := by
  have hitems := readItems_ok_iff.mp hread
  rw [toValues_ok_iff]
  clear hread
  induction hitems with
  | nil => exact ⟨fun _ hd => absurd hd List.not_mem_nil, .nil⟩
  | cons hd _ ih =>
    obtain ⟨hw, hws⟩ := List.forall_mem_cons.mp ho
    obtain ⟨hP, hvalue⟩ := h.sound hw hd
    obtain ⟨hPs, hvalues⟩ := ih hws
    exact ⟨List.forall_mem_cons.mpr ⟨hP, hPs⟩, .cons hvalue hvalues⟩

/-- Rows of values that are read exactly are read back. -/
theorem complete_items {item : Reading Value} {P : Datum → Prop} (h : Exact item P)
    {ws : List Value} {ds : List Datum} (hP : ∀ d ∈ ds, P d)
    (hvalues : Datum.toValues ds = .ok ws) : readItems item ws = .ok ds := by
  have hforall := toValues_ok_iff.mp hvalues
  rw [readItems_ok_iff]
  clear hvalues
  induction hforall with
  | nil => exact .nil
  | cons hd _ ih =>
    obtain ⟨hfirst, hrest⟩ := List.forall_mem_cons.mp hP
    exact .cons (h.complete hfirst hd) (ih hrest)

/-- Lists are read exactly. -/
theorem exact_list {reading : Reading Value} {item : Schema} (h : Exact reading (Has item)) :
    Exact (readList reading) (Has (.list item)) := by
  constructor
  · intro w x ho hread
    cases w with
    | array ws =>
      obtain ⟨ds, hds, hx⟩ := bind_ok hread
      cases hx
      rw [Value.Ordered, Json.orderedItems_iff] at ho
      obtain ⟨hhas, hvalues⟩ := exact_items h ho hds
      exact ⟨.list hhas, toValue_sequence.mpr ⟨ws, hvalues, rfl⟩⟩
    | null | bool | number | string | object => cases hread
  · intro w x hx hvalue
    cases hx with
    | list hhas =>
      obtain ⟨ws, hvalues, rfl⟩ := toValue_sequence.mp hvalue
      rw [readList, complete_items h hhas hvalues]
      rfl

/-! ### Tuples -/

/-- Parts that are read exactly make rows that are, when there are no more values than
parts. -/
theorem exact_parts {readings : List (Reading Value)} {Ps : List (Datum → Prop)}
    (h : List.Forall₂ Exact readings Ps) {count : Nat} {ws : List Value} {ds : List Datum}
    (ho : ∀ w ∈ ws, w.Ordered) (hlength : ws.length ≤ readings.length)
    (hread : readParts count readings ws = .ok (.inr ds)) :
    List.Forall₂ (fun (P : Datum → Prop) d => P d) Ps ds ∧ Datum.toValues ds = .ok ws := by
  induction h generalizing count ws ds with
  | nil =>
    cases hread
    rw [List.length_nil, Nat.le_zero, List.length_eq_zero_iff] at hlength
    rw [hlength]
    exact ⟨.nil, rfl⟩
  | cons hpart _ ih =>
    cases ws with
    | nil => cases hread
    | cons w ws =>
      obtain ⟨hw, hws⟩ := List.forall_mem_cons.mp ho
      rw [readParts] at hread
      obtain ⟨d, hd, hread⟩ := bind_ok hread
      obtain ⟨rest, hrest, hread⟩ := bind_ok hread
      cases rest with
      | inl short => cases hread
      | inr ds =>
        cases hread
        obtain ⟨hP, hvalue⟩ := hpart.sound hw hd
        obtain ⟨hPs, hvalues⟩ := ih hws (Nat.le_of_succ_le_succ hlength) hrest
        refine ⟨.cons hP hPs, ?_⟩
        rw [Datum.toValues, hvalue, hvalues]
        rfl

/-- Rows with a value for each part are read back, and there are as many values as
parts. -/
theorem complete_parts {readings : List (Reading Value)} {Ps : List (Datum → Prop)}
    (h : List.Forall₂ Exact readings Ps) (count : Nat) {ws : List Value} {ds : List Datum}
    (hP : List.Forall₂ (fun (P : Datum → Prop) d => P d) Ps ds)
    (hvalues : Datum.toValues ds = .ok ws) :
    readParts count readings ws = .ok (.inr ds) ∧ ws.length = readings.length := by
  induction h generalizing count ws ds with
  | nil =>
    cases hP
    cases hvalues
    exact ⟨rfl, rfl⟩
  | cons hpart _ ih =>
    cases hP with
    | cons hd hds =>
      rw [Datum.toValues] at hvalues
      obtain ⟨w, hw, hvalues⟩ := bind_ok hvalues
      obtain ⟨rest, hrest, hvalues⟩ := bind_ok hvalues
      cases hvalues
      obtain ⟨hread, hlength⟩ := ih (count + 1) hds hrest
      refine ⟨?_, by rw [List.length_cons, List.length_cons, hlength]⟩
      rw [readParts, hpart.complete hd hw]
      show (readParts (count + 1) _ _ >>= _) = _
      rw [hread]
      rfl

/-- A row of as many values as there are parts is read exactly. -/
theorem exact_tuple {readings : List (Reading Value)} {Ps : List (Datum → Prop)}
    (h : List.Forall₂ Exact readings Ps) (wanted : String) :
    Exact (readTupleValue readings wanted) fun x =>
      ∃ ds, x = .sequence ds ∧ List.Forall₂ (fun (P : Datum → Prop) d => P d) Ps ds := by
  constructor
  · intro w x ho hread
    cases w with
    | array ws =>
      rw [readTupleValue, readTuple] at hread
      obtain ⟨parts, hparts, hread⟩ := bind_ok hread
      rw [Value.Ordered, Json.orderedItems_iff] at ho
      cases parts with
      | inl count => cases hread
      | inr ds =>
        dsimp only at hread
        split at hread <;> cases hread
        next hlength =>
        obtain ⟨hP, hvalues⟩ := exact_parts h ho hlength hparts
        exact ⟨⟨ds, rfl, hP⟩, toValue_sequence.mpr ⟨ws, hvalues, rfl⟩⟩
    | null | bool | number | string | object => cases hread
  · rintro w x ⟨ds, rfl, hP⟩ hvalue
    obtain ⟨ws, hvalues, rfl⟩ := toValue_sequence.mp hvalue
    obtain ⟨hread, hlength⟩ := complete_parts h 0 hP hvalues
    rw [readTupleValue, readTuple, hread]
    exact if_pos hlength.le

end Settings.Schema
