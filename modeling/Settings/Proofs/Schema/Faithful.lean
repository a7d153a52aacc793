import Settings.Proofs.Schema.Maps
import Settings.Proofs.Schema.Rows

/-!
# Schemas that are read exactly

The readings of a schema are put together from those of its parts, and exactness is put
together in the same way. The induction is on the evidence that a schema is faithful, which
has one case for each form of schema; what it takes over tuples and arrays is that their
values are rows.
-/

namespace Settings.Schema

open Json (Value)

/-- A class that is another one is read exactly too. -/
theorem Exact.of_iff {reading : Reading Value} {P Q : Datum → Prop} (h : Exact reading P)
    (hiff : ∀ x, Q x ↔ P x) : Exact reading Q where
  sound ho hread := by
    obtain ⟨hP, hvalue⟩ := h.sound ho hread
    exact ⟨(hiff _).mpr hP, hvalue⟩
  complete hQ hvalue := h.complete ((hiff _).mp hQ) hvalue

/-- The readings of parts are exact when each part is read exactly. -/
theorem exact_readings {parts : List Schema} (h : ∀ part ∈ parts, Exact part.read (Has part)) :
    List.Forall₂ Exact (readings storedReaders parts) (parts.map Has) := by
  induction parts with
  | nil => exact .nil
  | cons part parts ih =>
    obtain ⟨hpart, hparts⟩ := List.forall_mem_cons.mp h
    exact .cons hpart (ih hparts)

/-- One reading as often as wanted is exact when it is. -/
theorem exact_replicate {reading : Reading Value} {P : Datum → Prop} (h : Exact reading P)
    (n : Nat) : List.Forall₂ Exact (List.replicate n reading) (List.replicate n P) := by
  induction n with
  | zero => exact .nil
  | succ n ih => exact .cons h ih

/-- The values of a tuple are rows with a value for each part. -/
theorem has_tuple_iff {parts : List Schema} {x : Datum} :
    Has (.tuple parts) x ↔
      ∃ ds, x = .sequence ds ∧
        List.Forall₂ (fun (P : Datum → Prop) d => P d) (parts.map Has) ds := by
  have hmap (ds : List Datum) : List.Forall₂ (fun (P : Datum → Prop) d => P d) (parts.map Has) ds ↔
      List.Forall₂ Has parts ds := List.forall₂_map_left_iff
  constructor
  · intro h
    cases h with
    | @tuple _ ds hds => exact ⟨ds, rfl, (hmap ds).mpr hds⟩
  · rintro ⟨ds, rfl, hds⟩
    exact .tuple ((hmap ds).mp hds)

/-- A row with a value of one class for each of so many parts. -/
theorem forall₂_replicate_iff {P : Datum → Prop} {n : Nat} {ds : List Datum} :
    List.Forall₂ (fun (P : Datum → Prop) d => P d) (List.replicate n P) ds ↔
      ds.length = n ∧ ∀ d ∈ ds, P d := by
  induction n generalizing ds with
  | zero =>
    rw [List.replicate_zero, List.forall₂_nil_left_iff]
    constructor
    · rintro rfl
      exact ⟨rfl, fun _ hd => absurd hd List.not_mem_nil⟩
    · exact fun h => List.length_eq_zero_iff.mp h.1
  | succ n ih =>
    rw [List.replicate_succ, List.forall₂_cons_left_iff]
    constructor
    · rintro ⟨d, rest, hd, hrest, rfl⟩
      obtain ⟨hlength, hP⟩ := ih.mp hrest
      exact ⟨by rw [List.length_cons, hlength], List.forall_mem_cons.mpr ⟨hd, hP⟩⟩
    · rintro ⟨hlength, hP⟩
      cases ds with
      | nil => cases hlength
      | cons d rest =>
        obtain ⟨hd, hrest⟩ := List.forall_mem_cons.mp hP
        exact ⟨d, rest, hd, ih.mpr ⟨Nat.succ.inj hlength, hrest⟩, rfl⟩

/-- The values of an array are rows of its length. -/
theorem has_array_iff {length : Nat} {item : Schema} {x : Datum} :
    Has (.array length item) x ↔
      ∃ ds, x = .sequence ds ∧
        List.Forall₂ (fun (P : Datum → Prop) d => P d) (List.replicate length (Has item)) ds := by
  constructor
  · intro h
    cases h with
    | @array _ ds hds => exact ⟨ds, rfl, forall₂_replicate_iff.mpr ⟨rfl, hds⟩⟩
  · rintro ⟨ds, rfl, hds⟩
    obtain ⟨rfl, hhas⟩ := forall₂_replicate_iff.mp hds
    exact .array hhas

/-- A schema whose values can be told from their stored forms is read exactly. -/
theorem Faithful.exact {schema : Schema} (h : schema.Faithful) :
    Exact schema.read (Has schema) := by
  induction h with
  | bool => exact exact_bool
  | integer kind => exact exact_integer kind
  | char => exact exact_char
  | text => exact exact_text
  | unit => exact exact_unit
  | option _ hnull ih => exact exact_option ih hnull
  | list _ ih => exact exact_list ih
  | @tuple parts _ ih =>
    exact (exact_tuple (exact_readings ih) (tupleName parts.length)).of_iff fun _ => has_tuple_iff
  | array length _ ih =>
    exact (exact_tuple (exact_replicate ih length) _).of_iff fun _ => has_array_iff
  | map _ ih => exact exact_map ih

end Settings.Schema
