import Settings.Proofs.Storage.Reliable
import Settings.Proofs.Store.Load

/-!
# A store that is opened again

A storage that does not fail holds the text of a store after each of its
changes. What a new store over the same slot finds is therefore decided by what
loading makes of that text: it has the same keys, and under each of them the
value as which the text of the setting is read. Both stores agree exactly when
every double among the settings is read back.
-/

namespace Settings.Store

open Json (Value Document Members)
open Storage (Access)

variable {ε σ ι : Type}

/-! ### Changes one after another -/

/-- What a store and the world are after changes, whether they succeed or not. -/
def after (change : ι → Store → σ → Change ε σ) : List ι → Store → σ → Store × σ
  | [], store, world => (store, world)
  | first :: rest, store, world =>
    after change rest (change first store world).store (change first store world).world

/-- What every change preserves holds after any number of them. -/
theorem after_preserves {change : ι → Store → σ → Change ε σ} {P : Store → σ → Prop}
    {changes : List ι}
    (hstep : ∀ i ∈ changes, ∀ store world, P store world →
      P (change i store world).store (change i store world).world)
    {store : Store} {world : σ} (h : P store world) :
    P (after change changes store world).1 (after change changes store world).2 := by
  induction changes generalizing store world with
  | nil => exact h
  | cons first rest ih =>
    rw [after]
    exact ih (fun i hi => hstep i (List.mem_cons_of_mem _ hi))
      (hstep first List.mem_cons_self store world h)

/-! ### What the storage holds -/

/-- A store over a slot of a storage that does not fail. -/
structure Running (holds : σ → Prop) (levels : Nat) (slot : String) (store : Store)
    (world : σ) : Prop where
  /-- The storage does not fail. -/
  working : holds world
  /-- The store writes to the slot. -/
  slot_eq : store.slot = slot
  /-- What the store holds is sound. -/
  sound : Sound levels store.document

/-- A store whose settings stand in its slot as they are in memory. -/
structure Kept (access : Access σ) (holds : σ → Prop) (levels : Nat) (slot : String)
    (store : Store) (world : σ) : Prop extends Running holds levels slot store world where
  /-- The slot has the text of the settings. -/
  stored : access.read slot world = .ok (some (Json.encode store.document))

variable {access : Access σ} {holds : σ → Prop} {levels : Nat} {slot : String} {store : Store}
  {world : σ}

/-- Writing a store to a storage that does not fail succeeds and keeps what the
store holds. -/
theorem kept_persist (hr : access.Reliable holds) (h : Running holds levels slot store world) :
    (store.persist access world).result = .ok () ∧
      Kept access holds levels slot (store.persist access world).store
        (store.persist access world).world := by
  obtain ⟨next, hwrite, hnext, hread⟩ := hr.writes world h.working store.slot store.text
  unfold persist
  rw [hwrite]
  refine ⟨rfl, ⟨hnext, h.slot_eq, h.sound⟩, ?_⟩
  rw [← h.slot_eq]
  exact hread

/-- Putting a sound value keeps what the store holds then. -/
theorem kept_put (hr : access.Reliable holds) (h : Running holds levels slot store world)
    (key : String) {value : Value} (hv : value.Within levels) :
    (store.put access key value world).result = .ok () ∧
      Kept access holds levels slot (store.put access key value world).store
        (store.put access key value world).world :=
  kept_persist hr ⟨h.working, h.slot_eq, h.sound.insert key hv⟩

/-- Dropping a setting keeps what the store holds then. -/
theorem kept_remove (hr : access.Reliable holds) (h : Running holds levels slot store world)
    (key : String) :
    (store.remove access key world).result = .ok () ∧
      Kept access holds levels slot (store.remove access key world).store
        (store.remove access key world).world :=
  kept_persist hr ⟨h.working, h.slot_eq, h.sound.erase key⟩

/-- A store that was opened is running. -/
theorem running_open (hw : holds world) (h : (openSlot access slot world).1 = .ok store) :
    Running holds 126 slot store world :=
  ⟨hw, (openSlot_ok h).1, (openSlot_ok h).2⟩

/-! ### Opening again -/

/-- A store opened over kept settings has each of them as its text is read, when
the settings leave room for the braces around them. -/
theorem Kept.reopen (h : Kept access holds levels slot store world)
    (hd : (Value.object store.document).depth ≤ Json.greatestDepth) :
    (openSlot access slot world).1 = .ok ⟨slot, Json.rereadMembers store.document⟩ := by
  unfold openSlot
  rw [h.stored]
  simp only [load_encode h.sound.ascending hd]

/-- Over settings that leave no such room none is opened. -/
theorem Kept.reopen_refused (h : Kept access holds levels slot store world)
    (hd : Json.greatestDepth < (Value.object store.document).depth) :
    ∃ reason, (openSlot access slot world).1 = .error (.malformed slot reason) := by
  obtain ⟨reason, hl⟩ := load_encode_refused hd slot
  refine ⟨reason, ?_⟩
  unfold openSlot
  rw [h.stored]
  simp only [hl]

/-! ### Agreement of two stores -/

/-- Two stores answer alike whether there is a setting and which it is. -/
def Agrees (first second : Store) : Prop :=
  ∀ key, first.contains key = second.contains key ∧
    ∀ default, first.get key default = second.get key default

/-- Stores agree when they find the same. -/
theorem agrees_iff {first second : Store} :
    first.Agrees second ↔ ∀ key, first.find? key = second.find? key := by
  constructor
  · intro h key
    obtain ⟨hc, hg⟩ := h key
    unfold contains at hc
    unfold get at hg
    cases hf : first.find? key with
    | none =>
      cases hs : second.find? key with
      | none => rfl
      | some w => rw [hf, hs] at hc; cases hc
    | some v =>
      cases hs : second.find? key with
      | none => rw [hf, hs] at hc; cases hc
      | some w =>
        have hvw := hg .null
        rw [hf, hs, Option.getD_some, Option.getD_some] at hvw
        rw [hvw]
  · intro h key
    unfold contains get
    rw [h key]
    exact ⟨rfl, fun _ => rfl⟩

/-- Under a key of reread members stands the reread value. -/
theorem find?_rereadMembers (key : String) (ms : List (String × Value)) :
    Members.find? key (Json.rereadMembers ms) = (Members.find? key ms).map Value.reread := by
  induction ms with
  | nil => rfl
  | cons m ms ih =>
    obtain ⟨k, v⟩ := m
    rw [Json.rereadMembers, Members.find?, Members.find?]
    split
    · rfl
    · exact ih

/-- A store of reread settings agrees with the store of the settings exactly when
every double among them is read back. -/
theorem reread_agrees_iff (h : Sound levels store.document) :
    Agrees ⟨slot, Json.rereadMembers store.document⟩ store ↔
      ∀ x ∈ (Value.object store.document).floats, Json.ReadsBack x := by
  have hfloats := Value.reread_eq_iff h.ordered
  rw [Json.reread_object h.ascending, Value.object.injEq] at hfloats
  rw [agrees_iff, ← hfloats]
  constructor
  · intro hfind
    rw [Json.rereadMembers_eq]
    refine (List.map_congr_left fun m hm => ?_).trans (List.map_id store.document)
    have hkey := hfind m.1
    unfold find? at hkey
    rw [find?_rereadMembers, Members.find?_of_mem h.ascending hm] at hkey
    injection hkey with hv
    exact Prod.ext rfl hv
  · intro hdoc key
    unfold find?
    rw [hdoc]

end Settings.Store
