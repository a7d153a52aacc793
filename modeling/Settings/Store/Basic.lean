import Settings.Datum.Stored
import Settings.Json.Reader
import Settings.Schema.Read
import Settings.Storage.Access
import Settings.Store.Effect
import Settings.Store.Error

/-!
# A store of settings

A store keeps settings under their keys and has a slot in a storage, where all
of them stand as one text. The text is read once, when the store is opened;
reading a setting asks memory alone. Every change is made in memory first and
then the whole text is written. A write that fails is reported and the memory
is not taken back. Stores over one slot do not see each other; the last write
stands.
-/

namespace Settings

/-- Settings in memory and the slot where they are kept. -/
structure Store where
  /-- The key of the storage under which the text stands. -/
  slot : String
  /-- The settings. -/
  document : Json.Document

namespace Store

/-- The slot of a store that is opened without one. -/
def defaultSlot : String := "operaton"

/-- The settings that a stored text denotes. Without a text, and from the empty
one, there are none. -/
def load (slot : String) : Option String → Except Error Json.Document
  | none => .ok []
  | some text =>
    if text.isEmpty then .ok []
    else
      match Json.decode text with
      | .error reason => .error (.malformed slot reason)
      | .ok (.object members) => .ok members
      | .ok _ => .error (.notAnObject slot)

/-- Open a store over the slot of a storage. The storage is read once and not
changed. -/
def openSlot {σ : Type} (access : Storage.Access σ) (slot : String) (world : σ) :
    Except Error Store × List Effect :=
  match access.read slot world with
  | .error error => (.error (.storage error), [.reads slot])
  | .ok text =>
    match load slot text with
    | .error error => (.error error, [.reads slot])
    | .ok document => (.ok ⟨slot, document⟩, [.reads slot, .loaded document.length slot])

/-- The setting under a key, if there is one. -/
def find? (store : Store) (key : String) : Option Json.Value :=
  Json.Members.find? key store.document

/-- The setting under a key, or a default when there is none. A setting that is
null is there. -/
def get (store : Store) (key : String) (default : Json.Value) : Json.Value :=
  (store.find? key).getD default

/-- The setting under a key as a typed value, or a default when there is none.
The default does not stand in for a setting of another type. -/
def getAs (store : Store) (schema : Schema) (key : String) (default : Datum) :
    Except Error Datum :=
  match store.find? key with
  | some value => (schema.read value).mapError (.mismatch key)
  | none => .ok default

/-- Whether there is a setting under a key. -/
def contains (store : Store) (key : String) : Bool :=
  (store.find? key).isSome

/-- The text of all settings, as it is written. -/
def text (store : Store) : String :=
  Json.encode store.document

/-- What a change leaves behind, failures being reported in `ε`. -/
structure Change (ε σ : Type) where
  /-- Whether it succeeded. -/
  result : Except ε Unit
  /-- The store after it. -/
  store : Store
  /-- The world after it. -/
  world : σ
  /-- What was done, in order. -/
  effects : List Effect

/-- Write a store that has been changed in memory. What is written, and what the
store holds, does not depend on whether the write succeeds. -/
def persist {σ : Type} (store : Store) (access : Storage.Access σ) (world : σ) :
    Change Error σ :=
  let written := access.write store.slot store.text world
  { result := (written.map fun _ => ()).mapError .storage
    store := store
    world := written.toOption.getD world
    effects :=
      [.persisting store.text.utf8ByteSize store.slot, .writes store.slot store.text] }

/-- Put a stored value under a key. -/
def put {σ : Type} (store : Store) (access : Storage.Access σ) (key : String) (value : Json.Value)
    (world : σ) : Change Error σ :=
  persist { store with document := Json.Members.insert key value store.document } access world

/-- Put a typed value under a key. One without a stored form changes nothing. -/
def set {σ : Type} (store : Store) (access : Storage.Access σ) (key : String) (datum : Datum)
    (world : σ) : Change Error σ :=
  match datum.toValue with
  | .ok value => store.put access key value world
  | .error reason => ⟨.error (.unstorable key reason), store, world, []⟩

/-- Drop the setting under a key; the text is written whether there was one or
not. -/
def remove {σ : Type} (store : Store) (access : Storage.Access σ) (key : String) (world : σ) :
    Change Error σ :=
  persist { store with document := Json.Members.erase key store.document } access world

end Store

end Settings
