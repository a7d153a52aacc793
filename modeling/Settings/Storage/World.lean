import Settings.Storage.Access
import Settings.Storage.Medium

/-!
# Storages that are shared

Areas of memory, failures of handles and pages of the browser are numbered in
the order in which they were made and never go away. A handle names what it
uses, so handles made from one another share items, and whoever holds a handle
keeps it when its name is given to another one.
-/

namespace Settings.Storage

/-- Everything that handles can share. -/
structure World where
  /-- Areas of memory. -/
  areas : List Area
  /-- The failures of each handle on memory. -/
  faults : List (Faults Error)
  /-- Pages of the browser. -/
  pages : List Page

/-- A world with nothing in it. -/
def World.empty : World := ⟨[], [], []⟩

/-- A way to a storage. -/
inductive Handle where
  /-- An area of memory, with the failures of this handle. -/
  | memory (area fault : Nat)
  /-- A page of the browser. -/
  | page (number : Nat)
deriving DecidableEq, Repr

namespace World

/-- The area of a number; one that was never made is empty. -/
def area (world : World) (number : Nat) : Area :=
  world.areas[number]?.getD []

/-- The failures of a handle. -/
def faultsOf (world : World) (number : Nat) : Faults Error :=
  world.faults[number]?.getD .none

/-- The page of a number. -/
def page (world : World) (number : Nat) : Page :=
  world.pages[number]?.getD ⟨[], .none⟩

/-- Read an item through a handle. -/
def read (handle : Handle) (key : String) (world : World) : Except Error (Option String) :=
  match handle with
  | .memory area fault => (world.area area).read (world.faultsOf fault) key
  | .page number => (world.page number).read key

/-- Write an item through a handle. -/
def write (handle : Handle) (key value : String) (world : World) : Except Error World :=
  match handle with
  | .memory area fault => do
    let changed ← (world.area area).write (world.faultsOf fault) key value
    return { world with areas := world.areas.set area changed }
  | .page number => do
    let changed ← (world.page number).write key value
    return { world with pages := world.pages.set number changed }

/-- The text under a key, whatever failures are set. -/
def stored? (handle : Handle) (key : String) (world : World) : Option String :=
  match handle with
  | .memory area _ => Items.find? key (world.area area)
  | .page number => (world.page number).text? key

/-- A new area of memory and a handle on it. -/
def addArea (items : Area) (world : World) : Handle × World :=
  (.memory world.areas.length world.faults.length,
    { world with areas := world.areas ++ [items], faults := world.faults ++ [.none] })

/-- A new page of the browser and a handle on it. -/
def addPage (items : Items Text.Units Text.Units) (world : World) : Handle × World :=
  (.page world.pages.length, { world with pages := world.pages ++ [⟨items, .none⟩] })

/-- Another handle on the storage of a handle. -/
def share (handle : Handle) (world : World) : Handle × World :=
  match handle with
  | .memory area _ =>
    (.memory area world.faults.length, { world with faults := world.faults ++ [.none] })
  | .page number => (.page number, world)

/-- Set the failures of a handle on memory; a page is left as it is. -/
def failMemory (handle : Handle) (faults : Faults Error) (world : World) : World :=
  match handle with
  | .memory _ fault => { world with faults := world.faults.set fault faults }
  | .page _ => world

/-- Set what a page throws; memory is left as it is. -/
def failPage (handle : Handle) (faults : Faults Script.Value) (world : World) : World :=
  match handle with
  | .memory _ _ => world
  | .page number =>
    { world with pages := world.pages.set number { world.page number with faults := faults } }

end World

/-- Access through a handle. -/
def Handle.access (handle : Handle) : Access World where
  read := World.read handle
  write := World.write handle

end Settings.Storage
