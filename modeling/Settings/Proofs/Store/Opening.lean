import Settings.Proofs.Json.Denotation
import Settings.Proofs.Store.Load
import Settings.Storage.World

/-!
# Which stored texts open a store

A slot without a text, or with the empty one, opens a store without settings. Of all
other texts those open a store that are an object by the grammar, nest no deeper than
127 containers, pair their escaped surrogates and have their numbers in range; the
store holds what the text denotes. A text of this kind that is no object is refused as
such, and every other text is refused as malformed.
-/

namespace Settings.Store

open Json (Tree Value Document SpellsText)

/-- A stored text that spells a tree with a denotation. -/
structure WellFormed (text : String) (tree : Tree) : Prop where
  /-- It keeps to the grammar. -/
  spells : SpellsText text.toList tree
  /-- At most 127 containers are nested in one another. -/
  depth_le : tree.depth ≤ 127
  /-- No escaped surrogate stands alone. -/
  paired : ∀ ps ∈ tree.strings, Json.Paired ps
  /-- No number is out of range. -/
  in_range : ∀ l ∈ tree.literals, ∃ n, l.number = .ok n

/-- A tree whose top level is an object. -/
def IsObject (tree : Tree) : Prop :=
  ∃ entries, tree = .object entries

/-- A well-formed text is decoded as the denotation of its tree. -/
theorem WellFormed.decode {text : String} {tree : Tree} (h : WellFormed text tree) :
    ∃ v, tree.Denotes v ∧ Json.decode text = .ok v := by
  obtain ⟨v, hv⟩ := (Json.exists_denotes_iff tree).mpr ⟨h.paired, h.in_range⟩
  exact ⟨v, hv, Json.decode_ok_iff.mpr ⟨tree, h.spells, h.depth_le, hv⟩⟩

/-- A text that is decoded is well-formed. -/
theorem wellFormed_of_decode {text : String} {v : Value} (h : Json.decode text = .ok v) :
    ∃ tree, WellFormed text tree := by
  obtain ⟨tree, hspells, hdepth, hv⟩ := Json.decode_ok_iff.mp h
  obtain ⟨hpaired, hrange⟩ := (Json.exists_denotes_iff tree).mp ⟨v, hv⟩
  exact ⟨tree, hspells, hdepth, hpaired, hrange⟩

/-- A text is a well-formed object, well-formed otherwise, or not well-formed. -/
theorem wellFormed_cases (text : String) :
    (∃ entries, WellFormed text (.object entries)) ∨
      (∃ tree, WellFormed text tree ∧ ¬IsObject tree) ∨ ¬∃ tree, WellFormed text tree := by
  by_cases h : ∃ tree, WellFormed text tree
  · obtain ⟨tree, ht⟩ := h
    by_cases ho : IsObject tree
    · obtain ⟨entries, rfl⟩ := ho
      exact Or.inl ⟨entries, ht⟩
    · exact Or.inr (Or.inl ⟨tree, ht, ho⟩)
  · exact Or.inr (Or.inr h)

/-- An object denotes an object and nothing else does. -/
theorem denotes_object_iff {tree : Tree} {v : Value} (h : tree.Denotes v) :
    IsObject tree ↔ ∃ members, v = .object members := by
  constructor
  · rintro ⟨entries, rfl⟩
    cases h with
    | object _ hv =>
      obtain ⟨members, rfl, -⟩ := hv
      exact ⟨members, rfl⟩
  · rintro ⟨members, rfl⟩
    generalize hv : Value.object members = v at h
    cases h with
    | null => cases hv
    | bool => cases hv
    | number hx => obtain ⟨n, -, rfl⟩ := hx; cases hv
    | string => cases hv
    | array => cases hv
    | object => exact ⟨_, rfl⟩

/-! ### The three outcomes of loading -/

variable {text : String} (slot : String)

/-- A well-formed object is loaded as its denotation. -/
theorem load_object (hne : text ≠ "") {entries : List (List Json.Piece × Tree)}
    (h : WellFormed text (.object entries)) :
    ∃ document, load slot (some text) = .ok document ∧
      (Tree.object entries).Denotes (.object document) := by
  obtain ⟨v, hv, hd⟩ := h.decode
  obtain ⟨members, rfl⟩ := (denotes_object_iff hv).mp ⟨entries, rfl⟩
  refine ⟨members, ?_, hv⟩
  rw [load_some (by simpa using hne), hd]

/-- A well-formed text that is no object is refused as such. -/
theorem load_notAnObject (hne : text ≠ "") {tree : Tree} (h : WellFormed text tree)
    (ho : ¬IsObject tree) : load slot (some text) = .error (.notAnObject slot) := by
  obtain ⟨v, hv, hd⟩ := h.decode
  rw [load_some (by simpa using hne), hd]
  cases v with
  | object members => exact absurd ((denotes_object_iff hv).mpr ⟨members, rfl⟩) ho
  | null | bool | number | string | array => rfl

/-- Any other text is refused as malformed. -/
theorem load_malformed (hne : text ≠ "") (h : ¬∃ tree, WellFormed text tree) :
    ∃ reason, load slot (some text) = .error (.malformed slot reason) := by
  rw [load_some (by simpa using hne)]
  cases hd : Json.decode text with
  | error reason => exact ⟨reason, rfl⟩
  | ok v => exact absurd (wellFormed_of_decode hd) h

/-! ### Opening -/

variable {σ : Type} (access : Storage.Access σ) {world : σ}

/-- A store is opened with what the text of its slot is loaded as. -/
theorem openSlot_load {raw : Option String} (hread : access.read slot world = .ok raw) :
    (openSlot access slot world).1 = (load slot raw).map (Store.mk slot) := by
  unfold openSlot
  rw [hread]
  cases hl : load slot raw with
  | error error => simp only [hl]; rfl
  | ok document => simp only [hl]; rfl

variable (world)

/-- Opening classifies every stored text. Without a text, or with the empty one, a store
without settings is opened. Otherwise a store is opened exactly over a well-formed
object, and it holds the denotation of that object; a text is refused as no object
exactly when it is well-formed otherwise, and as malformed exactly when it is not
well-formed. -/
theorem openSlot_classifies {raw : Option String} (hread : access.read slot world = .ok raw) :
    (raw = none ∨ raw = some "" → (openSlot access slot world).1 = .ok ⟨slot, []⟩) ∧
    ∀ text, raw = some text → text ≠ "" →
      ((∃ store, (openSlot access slot world).1 = .ok store) ↔
        ∃ entries, WellFormed text (.object entries)) ∧
      (∀ entries, WellFormed text (.object entries) →
        ∃ document, (openSlot access slot world).1 = .ok ⟨slot, document⟩ ∧
          (Tree.object entries).Denotes (.object document)) ∧
      ((openSlot access slot world).1 = .error (.notAnObject slot) ↔
        ∃ tree, WellFormed text tree ∧ ¬IsObject tree) ∧
      ((∃ reason, (openSlot access slot world).1 = .error (.malformed slot reason)) ↔
        ¬∃ tree, WellFormed text tree) := by
  have hopen := openSlot_load slot access hread
  refine ⟨?_, ?_⟩
  · rintro (rfl | rfl)
    · exact hopen
    · exact hopen
  rintro text rfl hne
  have hobject : ∀ entries, WellFormed text (.object entries) →
      ∃ document, (openSlot access slot world).1 = .ok ⟨slot, document⟩ ∧
        (Tree.object entries).Denotes (.object document) := by
    intro entries h
    obtain ⟨document, hl, hdenotes⟩ := load_object slot hne h
    exact ⟨document, by rw [hopen, hl]; rfl, hdenotes⟩
  have hother : (∃ tree, WellFormed text tree ∧ ¬IsObject tree) →
      (openSlot access slot world).1 = .error (.notAnObject slot) := by
    rintro ⟨tree, h, ho⟩
    rw [hopen, load_notAnObject slot hne h ho]
    rfl
  have hmalformed : (¬∃ tree, WellFormed text tree) →
      ∃ reason, (openSlot access slot world).1 = .error (.malformed slot reason) := by
    intro h
    obtain ⟨reason, hl⟩ := load_malformed slot hne h
    exact ⟨reason, by rw [hopen, hl]; rfl⟩
  -- one of the three cases applies, and their outcomes differ
  have hcases := wellFormed_cases text
  refine ⟨⟨?_, ?_⟩, hobject, ⟨?_, hother⟩, ⟨?_, hmalformed⟩⟩
  · rintro ⟨store, hs⟩
    rcases hcases with h | h | h
    · exact h
    · rw [hother h] at hs; cases hs
    · obtain ⟨reason, hm⟩ := hmalformed h; rw [hm] at hs; cases hs
  · rintro ⟨entries, h⟩
    obtain ⟨document, hs, -⟩ := hobject entries h
    exact ⟨_, hs⟩
  · intro hs
    rcases hcases with ⟨entries, h⟩ | h | h
    · obtain ⟨document, ho, -⟩ := hobject entries h; rw [ho] at hs; cases hs
    · exact h
    · obtain ⟨reason, hm⟩ := hmalformed h; rw [hm] at hs; cases hs
  · rintro ⟨reason, hs⟩
    rcases hcases with ⟨entries, h⟩ | h | h
    · obtain ⟨document, ho, -⟩ := hobject entries h; rw [ho] at hs; cases hs
    · rw [hother h] at hs; cases hs
    · exact h

/-- A stored object with blanks, an escaped pair of surrogates, a repeated key and a
number between them. -/
def repeatedKey : String :=
  "\t\x7b\"mood\": \"\\uD83D\\uDE00\", \"n\": -5 ,\n\"mood\" :[null]\x7d "

/-- A world in which the object stands under the default slot. -/
def repeatedKeyWorld : Storage.World :=
  ⟨[[(defaultSlot, repeatedKey)]], [.none], []⟩

/-- The object opens a store, so it is well-formed, and no member before the last one
under its key is kept. -/
theorem openSlot_classifies_repeatedKey :
    (Storage.Handle.memory 0 0).access.read defaultSlot repeatedKeyWorld =
        .ok (some repeatedKey) ∧
      repeatedKey ≠ "" ∧
      (∃ entries, WellFormed repeatedKey (.object entries)) ∧
      (openSlot (Storage.Handle.memory 0 0).access defaultSlot repeatedKeyWorld).1.map
        (fun store => store.find? "mood") = .ok (some (.array [.null])) := by
  have hread : (Storage.Handle.memory 0 0).access.read defaultSlot repeatedKeyWorld =
      .ok (some repeatedKey) := rfl
  have hne : repeatedKey ≠ "" := by decide
  obtain ⟨⟨hopens, -⟩, -⟩ :=
    (openSlot_classifies defaultSlot _ repeatedKeyWorld hread).2 repeatedKey rfl hne
  exact ⟨hread, hne, hopens ⟨_, rfl⟩, rfl⟩

end Settings.Store
