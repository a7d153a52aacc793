import Settings.Script.Describe
import Settings.Storage.Error
import Settings.Storage.Items

/-!
# Where items are kept

Items are kept in memory, under texts, or in a page of the browser, under texts
of 16-bit units. A handle on memory has failures of its own; a page fails for
everyone, by throwing a value of the script. Read back from a page, a surrogate
without its partner is replaced.
-/

namespace Settings.Storage

open Text (Units)

/-- The failures that a storage is set to: of reading and of writing. -/
structure Faults (ε : Type) where
  /-- Why reading fails, if it does. -/
  read : Option ε
  /-- Why writing fails, if it does. -/
  write : Option ε
deriving DecidableEq, Repr

/-- No failures. -/
def Faults.none {ε : Type} : Faults ε := ⟨Option.none, Option.none⟩

/-- Items in memory. -/
abbrev Area := Items String String

/-- Items of a page of the browser, with the values that it throws. -/
structure Page where
  /-- The items. -/
  items : Items Units Units
  /-- What reading and writing throw. -/
  faults : Faults Script.Value

/-- Read an item in memory through a handle with the given failures. -/
def Area.read (faults : Faults Error) (key : String) (area : Area) :
    Except Error (Option String) :=
  match faults.read with
  | some error => .error error
  | none => .ok (Items.find? key area)

/-- Write an item in memory through a handle with the given failures. -/
def Area.write (faults : Faults Error) (key value : String) (area : Area) :
    Except Error Area :=
  match faults.write with
  | some error => .error error
  | none => .ok (Items.put key value area)

/-- The text under a key of a page, as a host sees it. -/
def Page.text? (key : String) (page : Page) : Option String :=
  (Items.find? (Text.unitsOf key) page.items).map Text.hostText

/-- Read an item of a page. -/
def Page.read (key : String) (page : Page) : Except Error (Option String) :=
  match page.faults.read with
  | some thrown => .error (.refused thrown.describe)
  | none => .ok (page.text? key)

/-- Write an item of a page. -/
def Page.write (key value : String) (page : Page) : Except Error Page :=
  match page.faults.write with
  | some thrown => .error (.refused thrown.describe)
  | none =>
    .ok { page with items := Items.put (Text.unitsOf key) (Text.unitsOf value) page.items }

end Settings.Storage
