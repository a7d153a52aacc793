import Settings.Proofs.Storage.Writing

/-!
# Storages that do not fail

A storage is reliable in some worlds when every reading is answered there, every
writing is done and leads to such a world again, and what was written under a
key is read from there. A handle on memory without failures is reliable, and so
is a page that throws nothing.
-/

namespace Settings.Storage

/-- Access to a storage that does not fail in the given worlds. -/
structure Access.Reliable {σ : Type} (access : Access σ) (holds : σ → Prop) : Prop where
  /-- Reading is answered. -/
  reads : ∀ world, holds world → ∀ key, ∃ text, access.read key world = .ok text
  /-- Writing is done, and what was written is read back. -/
  writes : ∀ world, holds world → ∀ key text, ∃ after, access.write key text world = .ok after ∧
    holds after ∧ access.read key after = .ok (some text)

/-- What a handle names is there and set to no failure. -/
def Handle.Working : Handle → World → Prop
  | .memory area fault, world => area < world.areas.length ∧ world.faultsOf fault = .none
  | .page number, world => number < world.pages.length ∧ (world.page number).faults = .none

/-- A page that throws nothing gives back what is written to it. -/
theorem Page.read_write {page : Page} (h : page.faults = .none) (key text : String) :
    ∃ after, page.write key text = .ok after ∧ after.faults = .none ∧
      after.read key = .ok (some text) := by
  unfold Page.write
  rw [h]
  refine ⟨_, rfl, rfl, ?_⟩
  show Except.ok (Page.text? key _) = _
  rw [Page.text?, Items.find?_put_self, Option.map_some, Text.hostText_unitsOf]

/-- Memory that is set to no failure gives back what is written to it. -/
theorem Area.read_write (area : Area) (key text : String) :
    ∃ after, Area.write .none key text area = .ok after ∧
      Area.read .none key after = .ok (some text) := by
  refine ⟨Items.put key text area, rfl, ?_⟩
  show Except.ok (Items.find? key _) = _
  rw [Items.find?_put_self]

/-- A handle on memory is reliable wherever it works. -/
theorem reliable_memory (area fault : Nat) :
    (Handle.memory area fault).access.Reliable (Handle.memory area fault).Working := by
  constructor
  · intro world hw key
    refine ⟨Items.find? key (world.area area), ?_⟩
    show Area.read (world.faultsOf fault) key (world.area area) = _
    rw [hw.2]
    rfl
  · intro world hw key text
    obtain ⟨after, hwrite, hread⟩ := Area.read_write (world.area area) key text
    refine ⟨{ world with areas := world.areas.set area after }, ?_, ⟨?_, hw.2⟩, ?_⟩
    · show (Area.write (world.faultsOf fault) key text (world.area area) >>= _) = _
      rw [hw.2, hwrite]
      rfl
    · show area < (world.areas.set area after).length
      rw [List.length_set]
      exact hw.1
    · show Area.read (world.faultsOf fault) key (World.area _ area) = _
      rw [hw.2, World.area_set_self world hw.1, hread]

/-- A handle on a page is reliable wherever it works. -/
theorem reliable_page (number : Nat) :
    (Handle.page number).access.Reliable (Handle.page number).Working := by
  constructor
  · intro world hw key
    refine ⟨(world.page number).text? key, ?_⟩
    show Page.read key (world.page number) = _
    unfold Page.read
    rw [hw.2]
    rfl
  · intro world hw key text
    obtain ⟨after, hwrite, hfaults, hread⟩ := Page.read_write hw.2 key text
    refine ⟨{ world with pages := world.pages.set number after }, ?_, ⟨?_, ?_⟩, ?_⟩
    · show (Page.write key text (world.page number) >>= _) = _
      rw [hwrite]
      rfl
    · show number < (world.pages.set number after).length
      rw [List.length_set]
      exact hw.1
    · rw [World.page_set_self world hw.1, hfaults]
    · show Page.read key (World.page _ number) = _
      rw [World.page_set_self world hw.1, hread]

/-- A handle is reliable wherever it works. -/
theorem Handle.reliable (handle : Handle) : handle.access.Reliable handle.Working := by
  cases handle with
  | memory area fault => exact reliable_memory area fault
  | page number => exact reliable_page number

end Settings.Storage
