import Settings.Proofs.Storage.Writing

/-!
# A portion of memory

Handles on one area of memory share its items, and each handle has failures of its own.
The items under some keys, used through one handle, make a portion of the area. What a use
of a portion finds out depends on nothing beyond the portion, and it changes nothing beyond
it. Portions of one area that have neither a key nor a handle in common are therefore
left alone by each other's uses.
-/

namespace Settings.Storage

/-- The items of an area under some keys, used through one handle. -/
structure Portion where
  /-- The area. -/
  area : Nat
  /-- The failures of the handle. -/
  fault : Nat
  /-- The keys. -/
  keys : String → Prop

namespace Portion

/-- The handle of a portion. -/
def handle (portion : Portion) : Handle :=
  .memory portion.area portion.fault

/-- The area and the handle of a portion have been made. -/
structure Within (portion : Portion) (world : World) : Prop where
  /-- The area is there. -/
  area_lt : portion.area < world.areas.length
  /-- The failures of the handle are there. -/
  fault_lt : portion.fault < world.faults.length

/-- Two worlds are the same as far as a portion goes. -/
structure Agrees (portion : Portion) (world world' : World) : Prop where
  /-- The handle has the same failures. -/
  faultsOf_eq : world'.faultsOf portion.fault = world.faultsOf portion.fault
  /-- The same items stand under the keys. -/
  item_eq : ∀ key, portion.keys key →
    Items.find? key (world'.area portion.area) = Items.find? key (world.area portion.area)

/-- One world becomes another in nothing but a portion. -/
structure Confines (portion : Portion) (world next : World) : Prop where
  /-- No area is made or gone. -/
  length_areas : next.areas.length = world.areas.length
  /-- No handle is made or gone. -/
  length_faults : next.faults.length = world.faults.length
  /-- Other handles have the failures that they had. -/
  faultsOf_eq : ∀ fault, fault ≠ portion.fault → next.faultsOf fault = world.faultsOf fault
  /-- Under other keys the area has the items that it had. -/
  item_eq : ∀ key, ¬ portion.keys key →
    Items.find? key (next.area portion.area) = Items.find? key (world.area portion.area)

/-- Two portions of one area with neither a handle nor a key in common. -/
structure Apart (portion other : Portion) : Prop where
  /-- They are of one area. -/
  area_eq : other.area = portion.area
  /-- Their handles have failures of their own. -/
  fault_ne : other.fault ≠ portion.fault
  /-- No key is in both. -/
  keys_disjoint : ∀ key, other.keys key → ¬ portion.keys key

variable {portion other : Portion} {world world' next : World}

/-- Being apart goes both ways. -/
theorem Apart.symm (h : portion.Apart other) : other.Apart portion :=
  ⟨h.area_eq.symm, h.fault_ne.symm, fun key hkey hother => h.keys_disjoint key hother hkey⟩

/-- A world agrees with itself. -/
theorem agrees_refl (portion : Portion) (world : World) : portion.Agrees world world :=
  ⟨rfl, fun _ _ => rfl⟩

/-- Agreement goes both ways. -/
theorem Agrees.symm (h : portion.Agrees world world') : portion.Agrees world' world :=
  ⟨h.faultsOf_eq.symm, fun key hkey => (h.item_eq key hkey).symm⟩

/-- Agreement with two worlds in turn. -/
theorem Agrees.trans {last : World} (h : portion.Agrees world world')
    (h' : portion.Agrees world' last) : portion.Agrees world last :=
  ⟨h'.faultsOf_eq.trans h.faultsOf_eq,
    fun key hkey => (h'.item_eq key hkey).trans (h.item_eq key hkey)⟩

/-- A world that stays is confined to every portion. -/
theorem confines_refl (portion : Portion) (world : World) : portion.Confines world world :=
  ⟨rfl, rfl, fun _ _ => rfl, fun _ _ => rfl⟩

/-- What is confined to a portion in two turns. -/
theorem Confines.trans {last : World} (h : portion.Confines world next)
    (h' : portion.Confines next last) : portion.Confines world last where
  length_areas := h'.length_areas.trans h.length_areas
  length_faults := h'.length_faults.trans h.length_faults
  faultsOf_eq fault hfault := (h'.faultsOf_eq fault hfault).trans (h.faultsOf_eq fault hfault)
  item_eq key hkey := (h'.item_eq key hkey).trans (h.item_eq key hkey)

/-- What is confined to one portion agrees for another. -/
theorem Confines.agrees (h : portion.Confines world next) (ha : portion.Apart other) :
    other.Agrees world next := by
  refine ⟨h.faultsOf_eq other.fault ha.fault_ne, fun key hkey => ?_⟩
  rw [ha.area_eq]
  exact h.item_eq key (ha.keys_disjoint key hkey)

/-- What is confined to a portion takes away neither areas nor handles. -/
theorem Within.of_confines (hw : other.Within world) (h : portion.Confines world next) :
    other.Within next := by
  constructor
  · rw [h.length_areas]
    exact hw.area_lt
  · rw [h.length_faults]
    exact hw.fault_lt

/-! ### Reading and writing -/

variable {key text : String}

/-- An item of a portion is read alike, or the same failure is met. -/
theorem Agrees.read_eq (h : portion.Agrees world world') (hkey : portion.keys key) :
    world'.read portion.handle key = world.read portion.handle key := by
  show (world'.area portion.area).read (world'.faultsOf portion.fault) key =
    (world.area portion.area).read (world.faultsOf portion.fault) key
  unfold Area.read
  rw [h.faultsOf_eq, h.item_eq key hkey]

/-- What stands under a key of a portion is the same. -/
theorem Agrees.stored?_eq (h : portion.Agrees world world') (hkey : portion.keys key) :
    world'.stored? portion.handle key = world.stored? portion.handle key :=
  h.item_eq key hkey

/-- A writing that is done under a key of a portion is confined to it. -/
theorem confines_write (hw : portion.Within world) (hkey : portion.keys key)
    (h : world.write portion.handle key text = .ok next) : portion.Confines world next := by
  have hnext : next = { world with
      areas := world.areas.set portion.area (Items.put key text (world.area portion.area)) } :=
    World.eq_of_write_memory h
  refine ⟨World.length_areas_write h, ?_, fun fault _ => ?_, fun other hother => ?_⟩
  · rw [hnext]
  · rw [hnext]
    rfl
  · have hne : key ≠ other := fun heq => hother (heq ▸ hkey)
    rw [hnext, World.area_set_self world hw.area_lt, Items.find?_put_other hne]

/-- Whether a writing is done depends on the failures of the handle alone. -/
theorem write_eq (portion : Portion) (world : World) (key text : String) :
    world.write portion.handle key text =
      match (world.faultsOf portion.fault).write with
      | some error => .error error
      | none =>
        .ok { world with areas :=
          world.areas.set portion.area (Items.put key text (world.area portion.area)) } := by
  unfold handle World.write Area.write
  dsimp only
  cases (world.faultsOf portion.fault).write <;> rfl

/-- A writing is done in both worlds, which agree afterwards, or meets the same failure in
both. -/
theorem Agrees.write_cases (h : portion.Agrees world world') (hw : portion.Within world)
    (hw' : portion.Within world') (key text : String) :
    (∃ error, world.write portion.handle key text = .error error ∧
      world'.write portion.handle key text = .error error) ∨
    ∃ next next', world.write portion.handle key text = .ok next ∧
      world'.write portion.handle key text = .ok next' ∧ portion.Agrees next next' := by
  rw [write_eq, write_eq, h.faultsOf_eq]
  cases (world.faultsOf portion.fault).write with
  | some error => exact .inl ⟨error, rfl, rfl⟩
  | none =>
    refine .inr ⟨_, _, rfl, rfl, h.faultsOf_eq, fun other hother => ?_⟩
    rw [World.area_set_self world hw.area_lt, World.area_set_self world' hw'.area_lt]
    by_cases hk : key = other
    · rw [hk, Items.find?_put_self, Items.find?_put_self]
    · rw [Items.find?_put_other hk, Items.find?_put_other hk, h.item_eq other hother]

/-! ### Failures -/

/-- Failures that are set through the handle of a portion are confined to it. -/
theorem confines_fail (portion : Portion) (world : World) (faults : Faults Error) :
    portion.Confines world { world with faults := world.faults.set portion.fault faults } := by
  refine ⟨rfl, List.length_set, fun fault hne => ?_, fun _ _ => rfl⟩
  rw [World.faultsOf, List.getElem?_set_ne hne.symm, World.faultsOf]

/-- The same failures that are set in both worlds. -/
theorem Agrees.fail (h : portion.Agrees world world') (hw : portion.Within world)
    (hw' : portion.Within world') (faults : Faults Error) :
    portion.Agrees { world with faults := world.faults.set portion.fault faults }
      { world' with faults := world'.faults.set portion.fault faults } := by
  refine ⟨?_, h.item_eq⟩
  rw [World.faultsOf, List.getElem?_set_self hw'.fault_lt, World.faultsOf,
    List.getElem?_set_self hw.fault_lt]

end Portion

end Settings.Storage
