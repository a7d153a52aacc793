/-!
# Members of an object

An object is a list of keys with their values whose keys ascend strictly. Keys
are compared by code point, which is also the order of their UTF-8 bytes. The
main statements are that the operations keep that order and what is found after
each of them.
-/

namespace Settings.Json

/-- Keys with values. -/
abbrev Members (α : Type) := List (String × α)

namespace Members

variable {α : Type}

/-- The value of a key. -/
def find? (key : String) : Members α → Option α
  | [] => none
  | (k, v) :: rest => if key = k then some v else find? key rest

/-- Put a value under a key, in place of the one that was there. -/
def insert (key : String) (value : α) : Members α → Members α
  | [] => [(key, value)]
  | (k, v) :: rest =>
    if key < k then (key, value) :: (k, v) :: rest
    else if key = k then (key, value) :: rest
    else (k, v) :: insert key value rest

/-- Drop a key. -/
def erase (key : String) : Members α → Members α
  | [] => []
  | (k, v) :: rest => if key = k then rest else (k, v) :: erase key rest

/-- The members that a sequence of entries denotes: of entries with one key the
last counts. -/
def ofEntries (entries : List (String × α)) : Members α :=
  entries.foldl (fun members entry => members.insert entry.1 entry.2) []

/-- The keys ascend strictly, so none is repeated. -/
def Ascending (members : Members α) : Prop :=
  members.Pairwise fun a b => a.1 < b.1

/-! ### Look-up and order after a change -/

/-- What was put under a key is found there. -/
theorem find?_insert_self (key : String) (value : α) (members : Members α) :
    find? key (insert key value members) = some value := by
  induction members with
  | nil => simp only [insert, find?, if_true]
  | cons member rest ih =>
    simp only [insert]
    split
    · simp only [find?, if_true]
    · split
      · simp only [find?, if_true]
      · next h => simp only [find?, h, if_false, ih]

/-- A new value under one key leaves the others as they were. -/
theorem find?_insert_other {key other : String} (h : other ≠ key) (value : α)
    (members : Members α) :
    find? other (insert key value members) = find? other members := by
  induction members with
  | nil => simp only [insert, find?, h, if_false]
  | cons member rest ih =>
    simp only [insert]
    split
    · simp only [find?, h, if_false]
    · split
      · next hk => simp only [find?, h, ← hk, if_false]
      · simp only [find?, ih]

/-- After an insertion there is nothing but what was there and what was put. -/
theorem mem_insert {key : String} {value : α} {members : Members α} {member : String × α}
    (h : member ∈ insert key value members) : member = (key, value) ∨ member ∈ members := by
  induction members with
  | nil => exact Or.inl (List.mem_singleton.mp h)
  | cons first rest ih =>
    simp only [insert] at h
    split at h
    · exact List.mem_cons.mp h
    · split at h
      · rcases List.mem_cons.mp h with h | h
        · exact Or.inl h
        · exact Or.inr (List.mem_cons_of_mem _ h)
      · rcases List.mem_cons.mp h with h | h
        · exact Or.inr (h ▸ List.mem_cons_self)
        · rcases ih h with h | h
          · exact Or.inl h
          · exact Or.inr (List.mem_cons_of_mem _ h)

/-- Insertion keeps the keys ascending. -/
theorem ascending_insert (key : String) (value : α) {members : Members α}
    (h : Ascending members) : Ascending (insert key value members) := by
  induction members with
  | nil => exact List.pairwise_singleton _ _
  | cons first rest ih =>
    obtain ⟨hf, hr⟩ := List.pairwise_cons.mp h
    simp only [insert]
    split
    · next hlt =>
      refine List.pairwise_cons.mpr ⟨fun member hm => ?_, h⟩
      rcases List.mem_cons.mp hm with hm | hm
      · exact hm ▸ hlt
      · exact String.lt_trans hlt (hf member hm)
    · split
      · next hk =>
        refine List.pairwise_cons.mpr ⟨fun member hm => ?_, hr⟩
        simpa only [hk] using hf member hm
      · next hn hk =>
        refine List.pairwise_cons.mpr ⟨fun member hm => ?_, ih hr⟩
        rcases mem_insert hm with hm | hm
        · subst hm
          have hle : first.1 ≤ key := String.not_lt.mp hn
          exact Decidable.byContradiction fun hc =>
            hk (String.le_antisymm (String.not_lt.mp hc) hle)
        · exact hf member hm

/-- The keys of a sequence of entries ascend, whatever the entries were. -/
theorem ascending_ofEntries (entries : List (String × α)) : Ascending (ofEntries entries) := by
  suffices ∀ members : Members α, Ascending members →
      Ascending (entries.foldl (fun members entry => members.insert entry.1 entry.2) members) from
    this [] List.Pairwise.nil
  induction entries with
  | nil => exact fun _ h => h
  | cons entry rest ih => exact fun members h => ih _ (ascending_insert _ _ h)

/-- Dropping a key keeps the others ascending. -/
theorem ascending_erase (key : String) {members : Members α} (h : Ascending members) :
    Ascending (erase key members) := by
  induction members with
  | nil => exact h
  | cons first rest ih =>
    obtain ⟨hf, hr⟩ := List.pairwise_cons.mp h
    simp only [erase]
    split
    · exact hr
    · refine List.pairwise_cons.mpr ⟨fun member hm => ?_, ih hr⟩
      apply hf
      clear ih h hf hr
      induction rest with
      | nil => exact hm
      | cons second rest ih =>
        simp only [erase] at hm
        split at hm
        · exact List.mem_cons_of_mem _ hm
        · rcases List.mem_cons.mp hm with hm | hm
          · exact hm ▸ List.mem_cons_self
          · exact List.mem_cons_of_mem _ (ih hm)

/-- Dropping one key leaves the others as they were. -/
theorem find?_erase_other {key other : String} (h : other ≠ key) (members : Members α) :
    find? other (erase key members) = find? other members := by
  induction members with
  | nil => rfl
  | cons first rest ih =>
    simp only [erase]
    split
    · next hk => simp only [find?, ← hk, h, if_false]
    · simp only [find?, ih]

/-- A key that no member has is not found. -/
theorem find?_eq_none {key : String} {members : Members α}
    (h : ∀ member ∈ members, member.1 ≠ key) : find? key members = none := by
  induction members with
  | nil => rfl
  | cons first rest ih =>
    have hn : key ≠ first.1 := fun hk => h first List.mem_cons_self hk.symm
    simp only [find?, hn, if_false]
    exact ih fun member hm => h member (List.mem_cons_of_mem _ hm)

/-- A key that was dropped is not found. -/
theorem find?_erase_self (key : String) {members : Members α} (h : Ascending members) :
    find? key (erase key members) = none := by
  induction members with
  | nil => rfl
  | cons first rest ih =>
    obtain ⟨hf, hr⟩ := List.pairwise_cons.mp h
    simp only [erase]
    split
    · next hk =>
      refine find?_eq_none fun member hm he => ?_
      have := hf member hm
      rw [he, hk] at this
      exact String.lt_irrefl _ this
    · next hk => simp only [find?, hk, if_false, ih hr]

end Members

end Settings.Json
