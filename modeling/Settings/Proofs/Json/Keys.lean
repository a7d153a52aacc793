import Mathlib.Data.Finset.Card
import Settings.Proofs.Json.Denotation
import Settings.Proofs.Json.Shape

/-!
# The keys of members

Members whose keys ascend have no key twice, so their number is that of their keys. When they
are what entries denote, they have every key of the entries once, whether or not it is repeated
there.
-/

namespace Settings.Json

/-- Nothing is last under a key exactly when no entry has it. -/
theorem last?_eq_none_iff {α : Type} {key : String} {entries : List (String × α)} :
    last? key entries = none ↔ key ∉ entries.map Prod.fst := by
  rw [last?, List.lookup_eq_none_iff]
  constructor
  · intro h hm
    obtain ⟨entry, he, hk⟩ := List.mem_map.mp hm
    exact bne_iff_ne.mp (h entry (List.mem_reverse.mpr he)) hk.symm
  · intro h entry he
    refine bne_iff_ne.mpr fun hk => h ?_
    exact hk ▸ List.mem_map_of_mem (List.mem_reverse.mp he)

/-- Nothing is found under a key exactly when no member has it. -/
theorem Members.find?_eq_none_iff {α : Type} {key : String} {members : Members α}
    (hasc : Ascending members) : find? key members = none ↔ key ∉ members.map Prod.fst := by
  rw [← ofEntries_of_ascending hasc, find?_ofEntries, last?_eq_none_iff,
    ofEntries_of_ascending hasc]

/-- No two members with ascending keys have one key. -/
theorem Members.nodup_keys {α : Type} {members : Members α} (hasc : Ascending members) :
    (members.map Prod.fst).Nodup := by
  rw [List.Nodup, List.pairwise_map]
  refine hasc.imp fun {a b} hlt heq => ?_
  rw [heq] at hlt
  exact String.lt_irrefl b.1 hlt

/-- Ascending members under which stands what entries have last are as many as the entries have
different keys. -/
theorem Members.length_eq_card {α : Type} {members : Members α} {entries : List (String × α)}
    (hasc : Ascending members) (h : ∀ key, find? key members = last? key entries) :
    members.length = (entries.map Prod.fst).toFinset.card := by
  have hkeys : (members.map Prod.fst).toFinset = (entries.map Prod.fst).toFinset := by
    ext key
    have hnone : find? key members = none ↔ last? key entries = none := by rw [h]
    rw [find?_eq_none_iff hasc, last?_eq_none_iff] at hnone
    rw [List.mem_toFinset, List.mem_toFinset]
    exact not_iff_not.mp hnone
  rw [← hkeys, List.toFinset_card_of_nodup (nodup_keys hasc), List.length_map]

end Settings.Json
