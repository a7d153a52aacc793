import Settings.Script.Inspect
import Settings.Storage.Window
import Settings.Store.Scripted

/-!
# Steps and answers

A session is a sequence of steps on things that have names: storages, stores
and stores for scripts. Texts of stored values come as texts and are read by
the session. An answer holds what a step found out; how it is reported is
decided elsewhere.
-/

namespace Settings.Session

/-- What makes a storage fail. -/
inductive Fault where
  /-- A handle on memory fails with an error. -/
  | error (error : Storage.Error)
  /-- A page throws. -/
  | thrown (value : Script.Value)

/-- The error of a handle on memory. -/
def Fault.error? : Fault → Option Storage.Error
  | .error e => some e
  | .thrown _ => none

/-- The value that a page throws. -/
def Fault.thrown? : Fault → Option Script.Value
  | .error _ => none
  | .thrown v => some v

/-- What becomes of the window. -/
inductive WindowState where
  /-- There is none. -/
  | missing
  /-- It has no storage. -/
  | bare
  /-- Asking for its storage throws. -/
  | throwing (thrown : Script.Value)
  /-- Its storage is the one of a name. -/
  | offering (storage : String)

/-- One step of a session. -/
inductive Step where
  /-- Make a storage in memory. -/
  | memory (name : String) (items : List (String × String))
  /-- Make a storage in a page. -/
  | page (name : String) (items : List (Text.Units × Text.Units))
  /-- Name another handle on a storage. -/
  | share (name source : String)
  /-- Set or clear the failures of a storage. -/
  | fail (storage : String) (read write : Option Fault)
  /-- Read an item. -/
  | readItem (storage key : String)
  /-- Write an item. -/
  | writeItem (storage key value : String)
  /-- Change the window. -/
  | window (state : WindowState)
  /-- Name the storage of the window. -/
  | takeWindow (name : String)
  /-- Open a store. -/
  | openStore (store storage : String) (slot : Option String)
  /-- Get a setting. -/
  | get (store key default : String)
  /-- Get a setting as a typed value. -/
  | getAs (store key : String) (schema : Schema) (default : Datum)
  /-- Ask whether there is a setting. -/
  | contains (store key : String)
  /-- Set a setting to a stored value. -/
  | put (store key value : String)
  /-- Set a setting to a typed value. -/
  | set (store key : String) (datum : Datum)
  /-- Drop a setting. -/
  | remove (store key : String)
  /-- Ask for the slot of a store. -/
  | slot (store : String)
  /-- Ask for the text of all settings. -/
  | text (store : String)
  /-- Ask how many settings there are. -/
  | size (store : String)
  /-- Read an item of the storage of a store. -/
  | readBeside (store key : String)
  /-- Write an item of the storage of a store. -/
  | writeBeside (store key value : String)
  /-- Open a store for scripts. -/
  | openScripted (store storage : String) (slot : Option String)
  /-- Get a setting as a script value. -/
  | getScripted (store key : String) (default : Script.Value)
  /-- Set a setting to a script value. -/
  | setScripted (store key : String) (value : Script.Value)
  /-- Drop a setting of a store for scripts. -/
  | removeScripted (store key : String)
  /-- Ask for the slot of a store for scripts. -/
  | slotScripted (store : String)

/-- What a step found out. -/
inductive Answer where
  /-- It was done. -/
  | done
  /-- A name stands for nothing. -/
  | unbound
  /-- The text of a value is refused. -/
  | unreadable (reason : String)
  /-- A text, or that there is none. -/
  | text (text : Option String)
  /-- Yes or no. -/
  | flag (b : Bool)
  /-- How many. -/
  | count (n : Nat)
  /-- A store was opened: its slot, its text, and the text in the slot. -/
  | opened (slot text : String) (stored : Option String)
  /-- A store was changed: how that went, its text, and the text in the slot. -/
  | changed (result : Except Store.Error Unit) (text : String) (stored : Option String)
  /-- A store failed. -/
  | failed (error : Store.Error)
  /-- A storage failed. -/
  | refused (error : Storage.Error)
  /-- A script value, and whether it is the one that was handed over. -/
  | value (value : Script.Value) (same : Bool)
  /-- A value was thrown. -/
  | thrown (value : Script.Value)
  /-- A store was changed by a script: what was thrown, if anything, and the text
  in the slot. -/
  | changedByScript (result : Except Script.Value Unit) (stored : Option String)

end Settings.Session
