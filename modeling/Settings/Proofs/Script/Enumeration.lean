import Mathlib.Data.List.Perm.Basic
import Settings.Proofs.Decimal.Digits
import Settings.Proofs.Script.Shown
import Settings.Proofs.Text.Bytes

/-!
# The order in which properties are enumerated

A script enumerates the array indices among the keys of an object first, ascending as numbers,
and after them the other keys in the order in which they were defined. The members of a stored
object are defined in the order of the UTF-8 bytes of their keys, so the other keys ascend by
their bytes; they need not ascend by their 16-bit units. An index and another key are told apart
by the text of the key alone, and so is which of two keys comes first: the order of enumeration
is fixed by the keys.
-/

namespace Settings.Script

open Text (Units)
open Json (Members)

/-! ### Which keys are indices -/

/-- A key is an array index, in decimal and without leading zeros. -/
structure SpellsIndex (key : String) (index : Nat) : Prop where
  /-- The key is the decimal of the index. -/
  key_eq : key = toString index
  /-- The index is not greater than an array may have. -/
  index_le : index ≤ 4294967294

/-- A script takes a key for an index exactly when it spells the index. -/
theorem arrayIndex?_unitsOf_iff {key : String} {index : Nat} :
    arrayIndex? (Text.unitsOf key) = some index ↔ SpellsIndex key index := by
  have hread : Text.decodeUnits (Text.unitsOf key) = key.toList :=
    Text.decodeUnits_encodeUnits key.toList
  have hdecimal (n : Nat) : (toString n).toList = Decimal.digitsOf n := Nat.toList_repr
  unfold arrayIndex?
  rw [hread]
  dsimp only
  constructor
  · intro h
    split at h
    · next hspelled =>
      obtain ⟨-, hdigits, hle⟩ := hspelled
      cases h
      refine ⟨String.toList_inj.mp ?_, hle⟩
      rw [hdecimal]
      exact hdigits
    · cases h
  · rintro ⟨rfl, hle⟩
    rw [hdecimal, Decimal.valueOf_digitsOf]
    have hall : (Decimal.digitsOf index).all Char.isDigit = true :=
      List.all_eq_true.mpr fun c hc => Decimal.isDigit_of_mem_digitsOf hc
    exact if_pos ⟨hall, rfl, hle⟩

/-- A key spells one index at most. -/
theorem SpellsIndex.unique {key : String} {i j : Nat} (hi : SpellsIndex key i)
    (hj : SpellsIndex key j) : i = j :=
  Option.some.inj ((arrayIndex?_unitsOf_iff.mpr hi).symm.trans (arrayIndex?_unitsOf_iff.mpr hj))

/-- A key that a script does not take for an index spells none. -/
theorem not_spellsIndex {key : String} (h : arrayIndex? (Text.unitsOf key) = none) (index : Nat) :
    ¬SpellsIndex key index := by
  intro hindex
  cases (arrayIndex?_unitsOf_iff.mpr hindex).symm.trans h

/-! ### Which of two keys comes first -/

/-- A key is enumerated before another one. -/
inductive Precedes : String → String → Prop where
  /-- Indices ascend as numbers. -/
  | indices {key other : String} {i j : Nat} (hkey : SpellsIndex key i)
    (hother : SpellsIndex other j) (h : i < j) : Precedes key other
  /-- An index comes before what is none. -/
  | index {key other : String} {i : Nat} (hkey : SpellsIndex key i)
    (hother : ∀ j, ¬SpellsIndex other j) : Precedes key other
  /-- Other keys ascend by their UTF-8 bytes. -/
  | names {key other : String} (hkey : ∀ i, ¬SpellsIndex key i)
    (hother : ∀ j, ¬SpellsIndex other j) (h : Text.utf8 key < Text.utf8 other) :
    Precedes key other

/-- What comes before a key comes before those that the key comes before. -/
theorem Precedes.trans {first second third : String} (h : Precedes first second)
    (h' : Precedes second third) : Precedes first third := by
  cases h with
  | indices hfirst hsecond hlt =>
    cases h' with
    | indices hsecond' hthird hlt' =>
      cases hsecond.unique hsecond'
      exact .indices hfirst hthird (Nat.lt_trans hlt hlt')
    | index _ hthird => exact .index hfirst hthird
    | names hnone => exact absurd hsecond (hnone _)
  | index hfirst hnone =>
    cases h' with
    | indices hsecond => exact absurd hsecond (hnone _)
    | index hsecond => exact absurd hsecond (hnone _)
    | names _ hthird => exact .index hfirst hthird
  | names hfirst hnone hlt =>
    cases h' with
    | indices hsecond => exact absurd hsecond (hnone _)
    | index hsecond => exact absurd hsecond (hnone _)
    | names _ hthird hlt' => exact .names hfirst hthird (List.lt_trans hlt hlt')

/-- No key comes before itself. -/
theorem Precedes.irrefl (key : String) : ¬Precedes key key := by
  intro h
  cases h with
  | indices hkey hother hlt =>
    cases hkey.unique hother
    exact Nat.lt_irrefl _ hlt
  | index hkey hother => exact hother _ hkey
  | names _ _ hlt => exact List.lt_irrefl _ hlt

/-- A key that is put in front of another one comes before it. -/
theorem precedes_of_comesBefore {key other : String}
    (h : comesBefore (Text.unitsOf key) (Text.unitsOf other) = true) : Precedes key other := by
  unfold comesBefore at h
  split at h
  · next hkey hother =>
    exact .indices (arrayIndex?_unitsOf_iff.mp hkey) (arrayIndex?_unitsOf_iff.mp hother)
      (of_decide_eq_true h)
  · next hkey hother =>
    exact .index (arrayIndex?_unitsOf_iff.mp hkey) (not_spellsIndex hother)
  · cases h

/-- A key that a greater one is not put in front of comes before it. -/
theorem precedes_of_not_comesBefore {key other : String} (hlt : other < key)
    (h : ¬comesBefore (Text.unitsOf key) (Text.unitsOf other) = true) : Precedes other key := by
  unfold comesBefore at h
  split at h
  · next i j hkey hother =>
    have hi := arrayIndex?_unitsOf_iff.mp hkey
    have hj := arrayIndex?_unitsOf_iff.mp hother
    have hle : j ≤ i := Nat.not_lt.mp fun hij => h (decide_eq_true hij)
    have hne : j ≠ i := by
      rintro rfl
      have hsame : other = key := hj.key_eq.trans hi.key_eq.symm
      exact String.lt_irrefl key (hsame ▸ hlt)
    exact .indices hj hi (Nat.lt_of_le_of_ne hle hne)
  · exact absurd rfl h
  · next hkey =>
    have hnone := not_spellsIndex hkey
    cases hother : arrayIndex? (Text.unitsOf other) with
    | some j => exact .index (arrayIndex?_unitsOf_iff.mp hother) hnone
    | none => exact .names (not_spellsIndex hother) hnone (Text.utf8_lt_iff.mpr hlt)

/-! ### Objects as they are enumerated -/

/-- Members that stand in the order of enumeration. -/
def Enumerated (members : Json.Document) : Prop :=
  members.Pairwise fun a b => Precedes a.1 b.1

/-- There is one order of enumeration. -/
theorem Enumerated.unique {first second : Json.Document} (hf : Enumerated first)
    (hs : Enumerated second) (h : first.Perm second) : first = second :=
  h.eq_of_pairwise (fun a _ _ _ hab hba => absurd (hab.trans hba) (Precedes.irrefl a.1)) hf hs

/-- A member whose key is greater than all others is put where it is enumerated. -/
theorem exists_placed (member : String × Json.Value) {enumerated : Json.Document}
    (he : Enumerated enumerated) (hlt : ∀ other ∈ enumerated, other.1 < member.1) :
    ∃ placed : Json.Document, placed.Perm (member :: enumerated) ∧ Enumerated placed ∧
      place (Text.unitsOf member.1) (shown member.2) (enumerated.map shownMember) =
        placed.map shownMember := by
  induction enumerated with
  | nil => exact ⟨[member], .refl _, List.pairwise_singleton _ _, rfl⟩
  | cons first rest ih =>
    obtain ⟨hfirst, hrest⟩ := List.pairwise_cons.mp he
    obtain ⟨hltFirst, hltRest⟩ := List.forall_mem_cons.mp hlt
    rw [List.map_cons, shownMember, place]
    split
    · next hbefore =>
      have hprecedes := precedes_of_comesBefore hbefore
      refine ⟨member :: first :: rest, .refl _, List.pairwise_cons.mpr ⟨?_, he⟩, rfl⟩
      exact List.forall_mem_cons.mpr
        ⟨hprecedes, fun other hother => hprecedes.trans (hfirst other hother)⟩
    · next hbefore =>
      obtain ⟨placed, hperm, hplaced, hsame⟩ := ih hrest hltRest
      have hprecedes := precedes_of_not_comesBefore hltFirst hbefore
      refine ⟨first :: placed, (hperm.cons first).trans (.swap _ _ _),
        List.pairwise_cons.mpr ⟨fun other hother => ?_, hplaced⟩, ?_⟩
      · rcases List.mem_cons.mp (hperm.mem_iff.mp hother) with rfl | hother
        · exact hprecedes
        · exact hfirst other hother
      · rw [hsame, List.map_cons, shownMember]

/-- A new key is placed after the entries before it are defined. -/
theorem defined_concat {entries : List (Units × Value)} {entry : Units × Value}
    (hnew : entry.1 ∉ (defined entries).map Prod.fst) :
    defined (entries ++ [entry]) = place entry.1 entry.2 (defined entries) := by
  rw [defined, List.foldl_append, List.foldl_cons, List.foldl_nil]
  exact if_neg fun hdefined => hnew (any_key_iff.mp hdefined)

/-- Definitions under distinct keys leave the entries in another order. -/
theorem defined_perm {entries : List (Units × Value)} (h : DistinctKeys entries) :
    (defined entries).Perm entries := by
  induction entries using List.reverseRecOn with
  | nil => exact .refl _
  | append_singleton entries entry ih =>
    rw [DistinctKeys, List.map_append, List.map_singleton] at h
    obtain ⟨hdistinct, -, hdisjoint⟩ := List.nodup_append.mp h
    have hperm := ih hdistinct
    have hnew : entry.1 ∉ (defined entries).map Prod.fst := fun hm =>
      hdisjoint entry.1 ((hperm.map Prod.fst).mem_iff.mp hm) entry.1 (List.mem_singleton.mpr rfl)
        rfl
    rw [defined_concat hnew]
    exact (place_perm _ _ _).trans ((hperm.cons entry).trans (List.perm_append_singleton _ _).symm)

/-- The members of an object, defined as they ascend, stand in the order of enumeration. -/
theorem exists_enumerated {members : Json.Document} (h : Members.Ascending members) :
    ∃ enumerated : Json.Document, enumerated.Perm members ∧ Enumerated enumerated ∧
      defined (members.map shownMember) = enumerated.map shownMember := by
  induction members using List.reverseRecOn with
  | nil => exact ⟨[], .refl _, .nil, rfl⟩
  | append_singleton members member ih =>
    obtain ⟨hmembers, -, hlast⟩ := List.pairwise_append.mp h
    obtain ⟨enumerated, hperm, henumerated, hdefined⟩ := ih hmembers
    have hlt : ∀ other ∈ enumerated, other.1 < member.1 := fun other hother =>
      hlast other (hperm.mem_iff.mp hother) member (List.mem_singleton.mpr rfl)
    obtain ⟨placed, hplaced, hordered, hsame⟩ := exists_placed member henumerated hlt
    refine ⟨placed, ?_, hordered, ?_⟩
    · exact hplaced.trans ((hperm.cons member).trans (List.perm_append_singleton _ _).symm)
    · have hnew : (shownMember member).1 ∉
          (defined (members.map shownMember)).map Prod.fst := by
        rw [hdefined, List.map_map]
        intro hm
        obtain ⟨other, hother, hkey⟩ := List.mem_map.mp hm
        have hsameKey : other.1 = member.1 := Text.unitsOf_inj.mp hkey
        exact String.lt_irrefl member.1 (hsameKey ▸ hlt other hother)
      rw [List.map_append, List.map_singleton, defined_concat hnew, hdefined]
      exact hsame

end Settings.Script
