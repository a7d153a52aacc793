import Settings.Script.Parse
import Settings.Script.Stringify
import Settings.Store.Basic

/-!
# A store for scripts

A script reads and writes settings as values of its own. A value that is set
goes through its text; one that has no text drops the setting. A setting that
is read goes through its text too, and a default is handed back as it is.
Failures are thrown: what writing the value throws as it is, all else as an
error whose message names every source.
-/

namespace Settings.Store

/-- An error as a script sees it. -/
def thrownError (message : String) : Script.Value :=
  .error "Error" (Text.unitsOf message)

/-- The stored value of a script value, nothing if it has none, or what is
thrown. -/
def fromScript (value : Script.Value) : Except Script.Value (Option Json.Value) := do
  match ← Script.stringify value with
  | none => return none
  | some text =>
    match Json.read text with
    | .ok stored => return some stored
    | .error failure => .error (thrownError (failure.refusal text).message)

/-- The script value of a stored value, or what is thrown. -/
def toScript (value : Json.Value) : Except Script.Value Script.Value :=
  (Script.parse value.text).mapError (Script.parseError value.text)

/-- What a script reads. -/
inductive ScriptRead where
  /-- The setting, a new value. -/
  | setting (value : Script.Value)
  /-- The default itself. -/
  | byDefault (value : Script.Value)

/-- Open a store for scripts; a failure is thrown. -/
def openForScript {σ : Type} (access : Storage.Access σ) (slot : String) (world : σ) :
    Except Script.Value Store × List Effect :=
  let (result, effects) := openSlot access slot world
  (result.mapError fun error => thrownError error.line, effects)

/-- The setting under a key, or the default itself when there is none. -/
def getForScript (store : Store) (key : String) (default : Script.Value) :
    Except Script.Value ScriptRead :=
  match store.find? key with
  | some value => (toScript value).map .setting
  | none => .ok (.byDefault default)

/-- A change as a script sees it. -/
def Change.forScript {σ : Type} (change : Change Error σ) :
    Change Script.Value σ :=
  ⟨change.result.mapError fun error => thrownError error.line, change.store, change.world,
    change.effects⟩

/-- Set a value; one without a text drops the setting, and one that cannot be
stored changes nothing. -/
def setForScript {σ : Type} (store : Store) (access : Storage.Access σ) (key : String)
    (value : Script.Value) (world : σ) : Change Script.Value σ :=
  match fromScript value with
  | .ok (some stored) => (store.put access key stored world).forScript
  | .ok none => (store.remove access key world).forScript
  | .error thrown => ⟨.error thrown, store, world, []⟩

/-- Drop the setting under a key. -/
def removeForScript {σ : Type} (store : Store) (access : Storage.Access σ) (key : String)
    (world : σ) : Change Script.Value σ :=
  (store.remove access key world).forScript

end Settings.Store
