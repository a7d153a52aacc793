import Settings.Storage.World

/-!
# Memory and pages with the same items

Strings become units when they are handed to a page. No two strings become the same
units, so the items of memory can be followed in a page one by one: what is found,
what is put and what fails is the same on both sides. Two worlds correspond when every
area has its page and every failure of its handle is what the page throws, in words.
-/

namespace Settings.Storage

open Text (Units unitsOf unitsOf_inj)

/-! ### Items in units -/

/-- The items of an area as items of a page. -/
def Area.encode (area : Area) : Items Units Units :=
  area.map fun item => (unitsOf item.1, unitsOf item.2)

/-- What is found in a page under the units of a key are the units of what is found in
memory under the key. -/
theorem Area.find?_encode (key : String) (area : Area) :
    Items.find? (unitsOf key) area.encode = (Items.find? key area).map unitsOf := by
  induction area with
  | nil => rfl
  | cons item rest ih =>
    rw [encode, List.map_cons, Items.find?, Items.find?]
    by_cases h : item.1 = key
    · rw [if_pos (unitsOf_inj.mpr h), if_pos h, Option.map_some]
    · rw [if_neg fun he => h (unitsOf_inj.mp he), if_neg h]
      exact ih

/-- An item is put into a page as into memory. -/
theorem Area.encode_put (key value : String) (area : Area) :
    encode (Items.put key value area) = Items.put (unitsOf key) (unitsOf value) area.encode := by
  induction area with
  | nil => rfl
  | cons item rest ih =>
    by_cases h : item.1 = key
    · simp only [encode, List.map_cons, Items.put, h, if_true]
    · have hu : unitsOf item.1 ≠ unitsOf key := fun he => h (unitsOf_inj.mp he)
      simp only [encode, List.map_cons, Items.put, h, hu, if_false]
      exact congrArg _ ih

/-- Items that are put one after another make the same area and page. -/
theorem Area.encode_ofEntries (entries : List (String × String)) :
    encode (Items.ofEntries entries) =
      Items.ofEntries (entries.map fun entry => (unitsOf entry.1, unitsOf entry.2)) := by
  suffices ∀ area : Area,
      encode (entries.foldl (fun items entry => items.put entry.1 entry.2) area) =
        (entries.map fun entry => (unitsOf entry.1, unitsOf entry.2)).foldl
          (fun items entry => items.put entry.1 entry.2) area.encode from this []
  induction entries with
  | nil => exact fun area => rfl
  | cons entry rest ih =>
    intro area
    rw [List.foldl_cons, ih, List.map_cons, List.foldl_cons, encode_put]

/-- What a page throws as failures of memory: what was thrown, in words. -/
def Faults.described (faults : Faults Script.Value) : Faults Error :=
  ⟨faults.read.map fun thrown => .refused thrown.describe,
    faults.write.map fun thrown => .refused thrown.describe⟩

/-! ### One area and one page -/

/-- A page with the items of an area that throws where the handle on memory fails. -/
structure Mirrors (area : Area) (faults : Faults Error) (page : Page) : Prop where
  /-- The items are the same. -/
  items_eq : page.items = area.encode
  /-- The failures are the same. -/
  faults_eq : faults = page.faults.described

variable {area : Area} {faults : Faults Error} {page : Page}

/-- A page shows the text that is in memory. -/
theorem Mirrors.text?_eq (h : Mirrors area faults page) (key : String) :
    page.text? key = Items.find? key area := by
  rw [Page.text?, h.items_eq, Area.find?_encode, Option.map_map]
  cases Items.find? key area with
  | none => rfl
  | some text => exact congrArg some (Text.hostText_unitsOf text)

/-- A page is read as memory is. -/
theorem Mirrors.read_eq (h : Mirrors area faults page) (key : String) :
    page.read key = area.read faults key := by
  rw [Page.read, Area.read, h.faults_eq, Faults.described]
  cases page.faults.read with
  | none => exact congrArg Except.ok (h.text?_eq key)
  | some thrown => rfl

/-- A page is written as memory is: either both fail alike, or both have the same items
afterwards. -/
theorem Mirrors.write_cases (h : Mirrors area faults page) (key text : String) :
    (∃ error, area.write faults key text = .error error ∧ page.write key text = .error error) ∨
      ∃ area' page', area.write faults key text = .ok area' ∧ page.write key text = .ok page' ∧
        Mirrors area' faults page' := by
  have hwrite : faults.write = page.faults.write.map fun thrown => .refused thrown.describe := by
    rw [h.faults_eq, Faults.described]
  rw [Area.write, Page.write, hwrite]
  cases page.faults.write with
  | some thrown => exact Or.inl ⟨_, rfl, rfl⟩
  | none =>
    refine Or.inr ⟨_, _, rfl, rfl, ?_, h.faults_eq⟩
    rw [h.items_eq, Area.encode_put]

/-! ### Worlds -/

/-- Putting an element of a list in its own place changes nothing. -/
theorem set_getD_self {α : Type} (xs : List α) (number : Nat) (x : α) :
    xs.set number (xs[number]?.getD x) = xs := by
  by_cases h : number < xs.length
  · rw [List.getElem?_eq_getElem h, Option.getD_some, List.set_getElem_self]
  · rw [List.set_eq_of_length_le (Nat.le_of_not_lt h)]

/-- Worlds with the same items and the same failures, in memory on one side and in pages
on the other. -/
structure World.Corresponds (memory paged : World) : Prop where
  /-- The pages have the items of the areas. -/
  items_eq : paged.pages.map Page.items = memory.areas.map Area.encode
  /-- The handles on memory fail where the pages throw. -/
  faults_eq : memory.faults = paged.pages.map fun page => page.faults.described

namespace World.Corresponds

variable {memory paged : World}

/-- There are as many areas as pages. -/
theorem length_areas (h : memory.Corresponds paged) : memory.areas.length = paged.pages.length := by
  have hlength := congrArg List.length h.items_eq
  rw [List.length_map, List.length_map] at hlength
  exact hlength.symm

/-- There are as many handles on memory as pages. -/
theorem length_faults (h : memory.Corresponds paged) :
    memory.faults.length = paged.pages.length := by
  rw [h.faults_eq, List.length_map]

/-- Every area has its page. -/
theorem mirrors (h : memory.Corresponds paged) (number : Nat) :
    Mirrors (memory.area number) (memory.faultsOf number) (paged.page number) := by
  have hitems := congrArg (fun items => items[number]?) h.items_eq
  simp only [List.getElem?_map] at hitems
  constructor
  · rw [World.page, World.area]
    cases hp : paged.pages[number]? with
    | none =>
      rw [hp, Option.map_none] at hitems
      rw [Option.map_eq_none_iff.mp hitems.symm]
      rfl
    | some page =>
      rw [hp, Option.map_some] at hitems
      obtain ⟨area, ha, he⟩ := Option.map_eq_some_iff.mp hitems.symm
      rw [ha]
      exact he.symm
  · rw [World.faultsOf, h.faults_eq, List.getElem?_map, World.page]
    cases paged.pages[number]? <;> rfl

/-- Worlds with other items in one area and its page correspond. -/
theorem setItems (h : memory.Corresponds paged) (number : Nat) {area : Area} {page : Page}
    (hm : Mirrors area (memory.faultsOf number) page) :
    Corresponds { memory with areas := memory.areas.set number area }
      { paged with pages := paged.pages.set number page } := by
  constructor
  · show (paged.pages.set number page).map Page.items = (memory.areas.set number area).map _
    rw [List.map_set, List.map_set, h.items_eq, hm.items_eq]
  · show memory.faults = (paged.pages.set number page).map fun page => page.faults.described
    rw [List.map_set, ← h.faults_eq, ← hm.faults_eq, World.faultsOf, set_getD_self]

/-- Worlds with other failures of one handle and its page correspond. -/
theorem setFaults (h : memory.Corresponds paged) (number : Nat) (faults : Faults Script.Value) :
    Corresponds (memory.failMemory (.memory number number) faults.described)
      (paged.failPage (.page number) faults) := by
  constructor
  · show (paged.pages.set number { paged.page number with faults := faults }).map Page.items = _
    have hsame : (paged.pages.set number { paged.page number with faults := faults }).map
        Page.items = (paged.pages.set number (paged.page number)).map Page.items := by
      rw [List.map_set, List.map_set]
    rw [hsame, World.page, set_getD_self, h.items_eq]
    rfl
  · show memory.faults.set number faults.described = (paged.pages.set number _).map _
    rw [List.map_set, h.faults_eq]

/-- Worlds with a new area and a new page of the same items correspond, and the handles
have one number. -/
theorem add (h : memory.Corresponds paged) (area : Area) :
    ∃ number, (memory.addArea area).1 = .memory number number ∧
      (paged.addPage area.encode).1 = .page number ∧
      Corresponds (memory.addArea area).2 (paged.addPage area.encode).2 := by
  refine ⟨paged.pages.length, ?_, rfl, ?_, ?_⟩
  · rw [World.addArea, h.length_areas, h.length_faults]
  · show (paged.pages ++ [_]).map Page.items = (memory.areas ++ [area]).map Area.encode
    rw [List.map_append, List.map_append, h.items_eq]
    rfl
  · show memory.faults ++ [.none] = (paged.pages ++ [_]).map _
    rw [List.map_append, h.faults_eq]
    rfl

/-- A handle on memory and the handle on its page are read alike. -/
theorem read_eq (h : memory.Corresponds paged) (number : Nat) (key : String) :
    paged.read (.page number) key = memory.read (.memory number number) key :=
  (h.mirrors number).read_eq key

/-- They have the same text under every key. -/
theorem stored?_eq (h : memory.Corresponds paged) (number : Nat) (key : String) :
    paged.stored? (.page number) key = memory.stored? (.memory number number) key :=
  (h.mirrors number).text?_eq key

/-- They are written alike, and the worlds correspond afterwards. -/
theorem write_cases (h : memory.Corresponds paged) (number : Nat) (key text : String) :
    (∃ error, memory.write (.memory number number) key text = .error error ∧
        paged.write (.page number) key text = .error error) ∨
      ∃ memory' paged', memory.write (.memory number number) key text = .ok memory' ∧
        paged.write (.page number) key text = .ok paged' ∧ memory'.Corresponds paged' := by
  rcases (h.mirrors number).write_cases key text with ⟨error, ha, hp⟩ | ⟨area, page, ha, hp, hm⟩
  · refine Or.inl ⟨error, ?_, ?_⟩
    · show (Area.write _ key text _ >>= _) = _
      rw [ha]
      rfl
    · show (Page.write key text _ >>= _) = _
      rw [hp]
      rfl
  · refine Or.inr ⟨_, _, ?_, ?_, h.setItems number hm⟩
    · show (Area.write _ key text _ >>= _) = _
      rw [ha]
      rfl
    · show (Page.write key text _ >>= _) = _
      rw [hp]
      rfl

end World.Corresponds

end Settings.Storage
