import Mathlib.Data.List.Forall2
import Settings.Proofs.Json.Denotation
import Settings.Script.Value

/-!
# Objects up to the order of their keys

Where a property stands depends on its key and on when it was defined, so two objects
with the same properties may enumerate them differently. However the properties were
defined, an object has each key once, with the value that was defined last. Two objects
are alike when one is the other reordered, at every level; for that it is enough that
under every key both have alike values or none.
-/

namespace Settings.Script

open Text (Units)

/-! ### Lists of properties -/

section Lookup

variable {κ α : Type} [BEq κ] [LawfulBEq κ] {entries : List (κ × α)}

/-- No key stands twice. -/
def DistinctKeys (entries : List (κ × α)) : Prop :=
  (entries.map Prod.fst).Nodup

/-- What is found under a key is an entry. -/
theorem mem_of_lookup {key : κ} {value : α} (h : entries.lookup key = some value) :
    (key, value) ∈ entries := by
  obtain ⟨before, after, rfl, -⟩ := List.lookup_eq_some_iff.mp h
  exact List.mem_append_right _ List.mem_cons_self

/-- Under a key that no entry has nothing is found. -/
theorem lookup_of_notMem {key : κ} (h : key ∉ entries.map Prod.fst) :
    entries.lookup key = none :=
  List.lookup_eq_none_iff.mpr fun entry he =>
    bne_iff_ne.mpr fun hk => h (List.mem_map.mpr ⟨entry, he, hk.symm⟩)

/-- With distinct keys every entry is found under its key. -/
theorem lookup_eq_some_iff_mem (h : DistinctKeys entries) {key : κ} {value : α} :
    entries.lookup key = some value ↔ (key, value) ∈ entries := by
  refine ⟨mem_of_lookup, fun hm => ?_⟩
  obtain ⟨before, after, rfl⟩ := List.append_of_mem hm
  refine List.lookup_eq_some_iff.mpr ⟨before, after, rfl, fun entry he => ?_⟩
  unfold DistinctKeys at h
  rw [List.map_append] at h
  have hdisjoint := (List.nodup_append.mp h).2.2
  exact bne_iff_ne.mpr fun hk => hdisjoint entry.1 (List.mem_map_of_mem he) key
    List.mem_cons_self hk.symm

/-- With distinct keys the order of entries does not matter for what is found. -/
theorem lookup_perm {first second : List (κ × α)} (hp : first.Perm second)
    (h : DistinctKeys first) (key : κ) : first.lookup key = second.lookup key := by
  have h' : DistinctKeys second := (hp.map Prod.fst).nodup_iff.mp h
  refine Option.ext fun value => ?_
  rw [lookup_eq_some_iff_mem h, lookup_eq_some_iff_mem h', hp.mem_iff]

/-- With distinct keys the order of entries does not matter for what is found last. -/
theorem last?_perm {first second : List (κ × α)} (hp : first.Perm second)
    (h : DistinctKeys first) (key : κ) : Json.last? key first = Json.last? key second := by
  have hreversed : first.reverse.Perm second.reverse :=
    first.reverse_perm.trans (hp.trans second.reverse_perm.symm)
  have hdistinct : DistinctKeys first.reverse := by
    rw [DistinctKeys, List.map_reverse, List.nodup_reverse]
    exact h
  rw [Json.last?, Json.last?, lookup_perm hreversed hdistinct]

end Lookup

/-! ### Defining properties -/

/-- Placing a property adds it and nothing else. -/
theorem place_perm (key : Units) (value : Value) (properties : List (Units × Value)) :
    (place key value properties).Perm ((key, value) :: properties) := by
  induction properties with
  | nil => exact .refl _
  | cons property rest ih =>
    obtain ⟨k, v⟩ := property
    unfold place
    split
    · exact .refl _
    · exact (ih.cons (k, v)).trans (.swap _ _ _)

/-- Overwriting keeps the keys where they are. -/
theorem keys_overwrite (key : Units) (value : Value) (properties : List (Units × Value)) :
    (overwrite key value properties).map Prod.fst = properties.map Prod.fst := by
  induction properties with
  | nil => rfl
  | cons property rest ih =>
    obtain ⟨k, v⟩ := property
    unfold overwrite
    split
    · rfl
    · rw [List.map_cons, List.map_cons, ih]

/-- An overwritten property has the new value, and the others have theirs. -/
theorem lookup_overwrite {key : Units} (value : Value) {properties : List (Units × Value)}
    (hk : key ∈ properties.map Prod.fst) (other : Units) :
    (overwrite key value properties).lookup other =
      if other = key then some value else properties.lookup other := by
  induction properties with
  | nil => exact absurd hk List.not_mem_nil
  | cons property rest ih =>
    obtain ⟨k, v⟩ := property
    unfold overwrite
    split
    · next he =>
      subst he
      rw [List.lookup_cons, List.lookup_cons]
      by_cases ho : other = k
      · rw [ho, beq_self_eq_true, if_pos rfl]
      · rw [beq_false_of_ne ho, if_neg ho]
    · next he =>
      have hrest : key ∈ rest.map Prod.fst := by
        rcases List.mem_cons.mp hk with hk | hk
        · exact absurd hk.symm he
        · exact hk
      rw [List.lookup_cons, List.lookup_cons, ih hrest]
      by_cases ho : other = k
      · simp only [ho, beq_self_eq_true, he, if_false]
      · rw [beq_false_of_ne ho]

/-- Whether a key is defined. -/
theorem any_key_iff {key : Units} {properties : List (Units × Value)} :
    (properties.any fun property => decide (property.1 = key)) = true ↔
      key ∈ properties.map Prod.fst := by
  rw [List.any_eq_true, List.mem_map]
  simp only [decide_eq_true_eq]

/-- A definition keeps the keys distinct. -/
theorem distinctKeys_define {properties : List (Units × Value)} (h : DistinctKeys properties)
    (key : Units) (value : Value) : DistinctKeys (define key value properties) := by
  unfold define
  split
  · show ((overwrite key value properties).map Prod.fst).Nodup
    rw [keys_overwrite]
    exact h
  · next hk =>
    have hnew : DistinctKeys ((key, value) :: properties) :=
      List.nodup_cons.mpr ⟨fun hm => hk (any_key_iff.mpr hm), h⟩
    exact ((place_perm key value properties).map Prod.fst).nodup_iff.mpr hnew

/-- A defined property has the new value, and the others have theirs. -/
theorem lookup_define {properties : List (Units × Value)} (h : DistinctKeys properties)
    (key : Units) (value : Value) (other : Units) :
    (define key value properties).lookup other =
      if other = key then some value else properties.lookup other := by
  unfold define
  split
  · next hk => exact lookup_overwrite value (any_key_iff.mp hk) other
  · next hk =>
    have hnew : DistinctKeys (place key value properties) :=
      ((place_perm key value properties).map Prod.fst).nodup_iff.mpr
        (List.nodup_cons.mpr ⟨fun hm => hk (any_key_iff.mpr hm), h⟩)
    rw [lookup_perm (place_perm key value properties) hnew, List.lookup_cons]
    by_cases ho : other = key
    · rw [ho, beq_self_eq_true, if_pos rfl]
    · rw [beq_false_of_ne ho, if_neg ho]

/-- The properties that definitions leave, one after another. -/
def defined (entries : List (Units × Value)) : List (Units × Value) :=
  entries.foldl (fun properties entry => define entry.1 entry.2 properties) []

/-- Defined properties have distinct keys, and each has the value of the last entry
under its key. -/
theorem defined_spec (entries : List (Units × Value)) :
    DistinctKeys (defined entries) ∧
      ∀ key, (defined entries).lookup key = Json.last? key entries := by
  induction entries using List.reverseRecOn with
  | nil => exact ⟨List.nodup_nil, fun _ => rfl⟩
  | append_singleton entries entry ih =>
    obtain ⟨hdistinct, hlookup⟩ := ih
    have hdefined : defined (entries ++ [entry]) = define entry.1 entry.2 (defined entries) := by
      rw [defined, List.foldl_append]
      rfl
    rw [hdefined]
    refine ⟨distinctKeys_define hdistinct _ _, fun key => ?_⟩
    rw [lookup_define hdistinct, hlookup, Json.last?, Json.last?, List.reverse_concat,
      List.lookup_cons]
    by_cases hk : key = entry.1
    · rw [if_pos hk, hk, beq_self_eq_true]
    · rw [if_neg hk, beq_false_of_ne hk]

/-! ### Alike values -/

/-- Properties under one key with related values. -/
inductive SameKey {κ α β : Type} (R : α → β → Prop) : κ × α → κ × β → Prop where
  /-- The key is the same. -/
  | mk {key : κ} {v : α} {w : β} (h : R v w) : SameKey R (key, v) (key, w)

/-- Values that are equal up to the order of the keys of objects, at every level. -/
inductive Value.Alike : Value → Value → Prop where
  /-- A value is like itself. -/
  | same (v : Value) : Alike v v
  /-- Arrays of alike items. -/
  | array {vs ws : List Value} (h : List.Forall₂ Alike vs ws) : Alike (.array vs) (.array ws)
  /-- Objects of which one has, in another order, the keys of the other with alike
  values. -/
  | object {ps qs reordered : List (Units × Value)} (hp : reordered.Perm qs)
    (h : List.Forall₂ (SameKey Alike) ps reordered) : Alike (.object ps) (.object qs)

/-- Properties that are related key by key can be reordered so that they are related one
by one. -/
theorem exists_reordered {R : Value → Value → Prop} {ps qs : List (Units × Value)}
    (hp : DistinctKeys ps) (hq : DistinctKeys qs)
    (h : ∀ key, Option.Rel R (ps.lookup key) (qs.lookup key)) :
    ∃ reordered, reordered.Perm qs ∧ List.Forall₂ (SameKey R) ps reordered := by
  induction ps generalizing qs with
  | nil =>
    cases qs with
    | nil => exact ⟨[], .refl _, .nil⟩
    | cons property rest =>
      have hkey := h property.1
      rw [List.lookup_cons, beq_self_eq_true] at hkey
      cases hkey
  | cons property ps ih =>
    obtain ⟨key, v⟩ := property
    obtain ⟨hnot, hps⟩ := List.nodup_cons.mp hp
    have hkey := h key
    rw [List.lookup_cons, beq_self_eq_true] at hkey
    generalize hfound : qs.lookup key = found at hkey
    cases hkey with
    | @some _ w hvw =>
      obtain ⟨before, after, rfl, -⟩ := List.lookup_eq_some_iff.mp hfound
      have hmiddle : (before ++ (key, w) :: after).Perm ((key, w) :: (before ++ after)) :=
        List.perm_middle
      have hmoved : DistinctKeys ((key, w) :: (before ++ after)) :=
        (hmiddle.map Prod.fst).nodup_iff.mp hq
      obtain ⟨hnot', hrest⟩ := List.nodup_cons.mp hmoved
      have hrel : ∀ other, Option.Rel R (ps.lookup other) ((before ++ after).lookup other) := by
        intro other
        by_cases ho : other = key
        · rw [ho, lookup_of_notMem hnot, lookup_of_notMem hnot']
          exact .none
        · have hother := h other
          rw [lookup_perm hmiddle hq, List.lookup_cons, List.lookup_cons,
            beq_false_of_ne ho] at hother
          exact hother
      obtain ⟨reordered, hperm, hall⟩ := ih hps hrest hrel
      exact ⟨(key, w) :: reordered, (hperm.cons _).trans hmiddle.symm, .cons (.mk hvw) hall⟩

/-- Objects whose entries are last alike under every key are alike. -/
theorem alike_ofEntries {ps qs : List (Units × Value)}
    (h : ∀ key, Option.Rel Value.Alike (Json.last? key ps) (Json.last? key qs)) :
    (Value.ofEntries ps).Alike (Value.ofEntries qs) := by
  obtain ⟨hp, hps⟩ := defined_spec ps
  obtain ⟨hq, hqs⟩ := defined_spec qs
  have hlookup : ∀ key, Option.Rel Value.Alike ((defined ps).lookup key)
      ((defined qs).lookup key) := fun key => by
    rw [hps, hqs]
    exact h key
  obtain ⟨reordered, hperm, hall⟩ := exists_reordered hp hq hlookup
  exact .object hperm hall

/-- Alike properties one by one are alike under every key. -/
theorem lookup_rel {R : Value → Value → Prop} {ps qs : List (Units × Value)}
    (h : List.Forall₂ (SameKey R) ps qs) (key : Units) :
    Option.Rel R (ps.lookup key) (qs.lookup key) := by
  induction h with
  | nil => exact .none
  | @cons p q ps qs hpq _ ih =>
    cases hpq with
    | @mk k v w hvw =>
      rw [List.lookup_cons, List.lookup_cons]
      by_cases hk : key = k
      · rw [hk, beq_self_eq_true]; exact .some hvw
      · rw [beq_false_of_ne hk]; exact ih

/-- Properties one by one under the same keys have the same keys. -/
theorem keys_eq_of_sameKey {R : Value → Value → Prop} {ps qs : List (Units × Value)}
    (h : List.Forall₂ (SameKey R) ps qs) : ps.map Prod.fst = qs.map Prod.fst := by
  induction h with
  | nil => rfl
  | cons hpq _ ih =>
    cases hpq
    rw [List.map_cons, List.map_cons, ih]

/-- What is like an object with distinct keys is an object that has alike properties. -/
theorem Value.Alike.properties {ps : List (Units × Value)} {v : Value}
    (h : (Value.object ps).Alike v) (hp : DistinctKeys ps) :
    ∃ qs, v = .object qs ∧ ∀ key, Option.Rel Value.Alike (ps.lookup key) (qs.lookup key) := by
  cases h with
  | same =>
    refine ⟨ps, rfl, fun key => ?_⟩
    cases ps.lookup key with
    | none => exact .none
    | some v => exact .some (.same v)
  | @object _ qs reordered hperm hall =>
    have hreordered : DistinctKeys reordered := by
      unfold DistinctKeys
      rw [← keys_eq_of_sameKey hall]
      exact hp
    refine ⟨qs, rfl, fun key => ?_⟩
    rw [← lookup_perm hperm hreordered]
    exact lookup_rel hall key

end Settings.Script
