import Settings.Storage.World

/-!
# What a writing changes

A writing through a handle that is done puts one item into one area or one page.
Here this is said of the items of an area, whichever handle was used.
-/

namespace Settings.Storage

namespace World

variable (world : World) {number : Nat}

/-- An area is what was last put in its place. -/
theorem area_set_self (h : number < world.areas.length) (items : Area) :
    area { world with areas := world.areas.set number items } number = items := by
  rw [area, List.getElem?_set_self h, Option.getD_some]

/-- Other areas are what they were. -/
theorem area_set_ne {other : Nat} (h : number ≠ other) (items : Area) :
    area { world with areas := world.areas.set number items } other = world.area other := by
  rw [area, List.getElem?_set_ne h, area]

/-- A page is what was last put in its place. -/
theorem page_set_self (h : number < world.pages.length) (page : Page) :
    World.page { world with pages := world.pages.set number page } number = page := by
  rw [World.page, List.getElem?_set_self h, Option.getD_some]

variable {world} {next : World} {key text : String}

/-- A writing to memory that is done puts the item into its area. -/
theorem eq_of_write_memory {fault : Nat}
    (h : world.write (.memory number fault) key text = .ok next) :
    next = { world with
      areas := world.areas.set number (Items.put key text (world.area number)) } := by
  unfold write Area.write at h
  cases hf : (world.faultsOf fault).write with
  | some error => simp only [hf] at h; cases h
  | none => simp only [hf] at h; cases h; rfl

/-- A writing to a page leaves the areas as they were. -/
theorem areas_of_write_page (h : world.write (.page number) key text = .ok next) :
    next.areas = world.areas := by
  unfold write at h
  cases hp : (world.page number).write key text with
  | error error => simp only [hp] at h; cases h
  | ok page => simp only [hp] at h; cases h; rfl

end World

/-- The text that a writing through a handle leaves under a key of an area. -/
def Handle.placed? (area : Nat) (key : String) (handle : Handle) (written text : String) :
    Option String :=
  match handle with
  | .memory number _ => if number = area ∧ written = key then some text else none
  | .page _ => none

/-- A writing that is done leaves its text under its key and every other item of
an area as it was. -/
theorem World.find?_area_write {world next : World} {handle : Handle} {written text : String}
    (h : world.write handle written text = .ok next) {area : Nat}
    (ha : area < world.areas.length) (key : String) :
    Items.find? key (next.area area) =
      (handle.placed? area key written text).or (Items.find? key (world.area area)) := by
  cases handle with
  | page number =>
    rw [World.area, World.area, areas_of_write_page h, Handle.placed?, Option.none_or]
  | memory number fault =>
    rw [eq_of_write_memory h, Handle.placed?]
    by_cases hn : number = area
    · subst hn
      rw [area_set_self world ha]
      by_cases hk : written = key
      · subst hk
        rw [if_pos ⟨rfl, rfl⟩, Items.find?_put_self, Option.some_or]
      · rw [if_neg fun hc => hk hc.2, Items.find?_put_other hk, Option.none_or]
    · rw [area_set_ne world hn, if_neg fun hc => hn hc.1, Option.none_or]

/-- A writing makes no area and takes none away. -/
theorem World.length_areas_write {world next : World} {handle : Handle} {written text : String}
    (h : world.write handle written text = .ok next) :
    next.areas.length = world.areas.length := by
  cases handle with
  | page number => rw [areas_of_write_page h]
  | memory number fault => rw [eq_of_write_memory h, List.length_set]

end Settings.Storage
