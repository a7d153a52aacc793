import Settings.Datum.Text
import Settings.Session.Step

/-!
# Running a session

A session starts with no names and no window. A step that names something again
replaces what the name stood for; a store keeps the handle that it was opened
with. A store that fails to open leaves its name as it was. Each step gives an
answer and the effects of the store that it used.
-/

namespace Settings

/-- A store together with the storage that it uses. -/
structure Session.Bound where
  /-- The handle on the storage. -/
  handle : Storage.Handle
  /-- The store. -/
  store : Store

/-- Everything that steps can refer to. -/
structure Session where
  /-- What the storages share. -/
  world : Storage.World
  /-- The window. -/
  window : Storage.Window
  /-- Named storages. -/
  storages : Storage.Items String Storage.Handle
  /-- Named stores. -/
  stores : Storage.Items String Session.Bound
  /-- Named stores for scripts. -/
  scripted : Storage.Items String Session.Bound

namespace Session

/-- A session before its first step. -/
def start : Session := ⟨.empty, .missing, [], [], []⟩

/-- What a step leaves behind. -/
structure Outcome where
  /-- The session after it. -/
  session : Session
  /-- What it found out. -/
  answer : Answer
  /-- The effects of the store that it used. -/
  effects : List Store.Effect

/-- A step that changes nothing. -/
def tell (session : Session) (answer : Answer) : Outcome :=
  ⟨session, answer, []⟩

/-- Give a name to a storage in a world. -/
def nameStorage (session : Session) (name : String) (made : Storage.Handle × Storage.World) :
    Outcome :=
  ⟨{ session with world := made.2, storages := session.storages.put name made.1 }, .done, []⟩

/-- Do something with the storage of a name. -/
def withStorage (session : Session) (name : String) (use : Storage.Handle → Outcome) : Outcome :=
  match session.storages.find? name with
  | some handle => use handle
  | none => session.tell .unbound

/-- Do something with the store of a name. -/
def withStore (session : Session) (name : String) (use : Bound → Outcome) : Outcome :=
  match session.stores.find? name with
  | some bound => use bound
  | none => session.tell .unbound

/-- Do something with the store for scripts of a name. -/
def withScripted (session : Session) (name : String) (use : Bound → Outcome) : Outcome :=
  match session.scripted.find? name with
  | some bound => use bound
  | none => session.tell .unbound

/-- Do something with the stored value of a text. -/
def withValue (session : Session) (text : String) (use : Json.Value → Outcome) : Outcome :=
  match Json.decode text with
  | .ok value => use value
  | .error refusal => session.tell (.unreadable refusal.message)

/-- Read an item through a handle. -/
def readItem (session : Session) (key : String) (handle : Storage.Handle) : Outcome :=
  match session.world.read handle key with
  | .ok text => session.tell (.text text)
  | .error error => session.tell (.refused error)

/-- Write an item through a handle. -/
def writeItem (session : Session) (key value : String) (handle : Storage.Handle) : Outcome :=
  match session.world.write handle key value with
  | .ok world => ⟨{ session with world := world }, .done, []⟩
  | .error error => session.tell (.refused error)

/-- The window of a state; a storage is looked up when the state is set. -/
def setWindow (session : Session) : WindowState → Outcome
  | .missing => ⟨{ session with window := .missing }, .done, []⟩
  | .bare => ⟨{ session with window := .bare }, .done, []⟩
  | .throwing thrown => ⟨{ session with window := .throwing thrown }, .done, []⟩
  | .offering name =>
    session.withStorage name fun handle =>
      ⟨{ session with window := .offering handle }, .done, []⟩

/-- The text in the slot of a store, whatever failures are set. -/
def storedText (world : Storage.World) (bound : Bound) : Option String :=
  world.stored? bound.handle bound.store.slot

/-- Open a store on a handle and name it. -/
def openStore (session : Session) (name : String) (slot : Option String)
    (handle : Storage.Handle) : Outcome :=
  match Store.openSlot handle.access (slot.getD Store.defaultSlot) session.world with
  | (.ok store, effects) =>
    ⟨{ session with stores := session.stores.put name ⟨handle, store⟩ },
      .opened store.slot store.text (storedText session.world ⟨handle, store⟩), effects⟩
  | (.error error, effects) => ⟨session, .failed error, effects⟩

/-- Open a store for scripts on a handle and name it. -/
def openScripted (session : Session) (name : String) (slot : Option String)
    (handle : Storage.Handle) : Outcome :=
  match Store.openForScript handle.access (slot.getD Store.defaultSlot) session.world with
  | (.ok store, effects) =>
    ⟨{ session with scripted := session.scripted.put name ⟨handle, store⟩ }, .done, effects⟩
  | (.error thrown, effects) => ⟨session, .thrown thrown, effects⟩

/-- Keep a change of a named store. -/
def keep (session : Session) (name : String) (handle : Storage.Handle)
    (change : Store.Change Store.Error Storage.World) : Outcome :=
  ⟨{ session with
      world := change.world
      stores := session.stores.put name ⟨handle, change.store⟩ },
    .changed change.result change.store.text (storedText change.world ⟨handle, change.store⟩),
    change.effects⟩

/-- Keep a change of a named store for scripts. -/
def keepScripted (session : Session) (name : String) (handle : Storage.Handle)
    (change : Store.Change Script.Value Storage.World) : Outcome :=
  ⟨{ session with
      world := change.world
      scripted := session.scripted.put name ⟨handle, change.store⟩ },
    .changedByScript change.result (storedText change.world ⟨handle, change.store⟩),
    change.effects⟩

/-- The answer to a typed read: the text of the typed value. -/
def typedAnswer (key : String) (result : Except Store.Error Datum) : Answer :=
  match result with
  | .error error => .failed error
  | .ok datum =>
    match datum.encode with
    | .ok text => .text (some text)
    | .error reason => .failed (.unstorable key reason)

/-- A read by a script: what was read, and whether it is the default. -/
def getScripted (session : Session) (key : String) (default : Script.Value)
    (bound : Bound) : Outcome :=
  match bound.store.getForScript key default with
  | .error thrown => session.tell (.thrown thrown)
  | .ok (.setting value) => session.tell (.value value (value.same default))
  | .ok (.byDefault value) => session.tell (.value value value.sameAsItself)

/-- One step. -/
def step (session : Session) : Step → Outcome
  | .memory name items =>
    session.nameStorage name (session.world.addArea (Storage.Items.ofEntries items))
  | .page name items =>
    session.nameStorage name (session.world.addPage (Storage.Items.ofEntries items))
  | .share name source =>
    session.withStorage source fun handle =>
      session.nameStorage name (session.world.share handle)
  | .fail name read write =>
    session.withStorage name fun handle =>
      let memory := session.world.failMemory handle
        ⟨read.bind Fault.error?, write.bind Fault.error?⟩
      let page := memory.failPage handle ⟨read.bind Fault.thrown?, write.bind Fault.thrown?⟩
      ⟨{ session with world := page }, .done, []⟩
  | .readItem name key => session.withStorage name (session.readItem key)
  | .writeItem name key value => session.withStorage name (session.writeItem key value)
  | .window state => session.setWindow state
  | .takeWindow name =>
    match session.window.handle with
    | .ok handle => session.nameStorage name (handle, session.world)
    | .error error => session.tell (.refused error)
  | .openStore name storage slot => session.withStorage storage (session.openStore name slot)
  | .get name key default =>
    session.withValue default fun value =>
      session.withStore name fun bound =>
        session.tell (.text (some (bound.store.get key value).encode))
  | .getAs name key schema default =>
    session.withStore name fun bound =>
      session.tell (typedAnswer key (bound.store.getAs schema key default))
  | .contains name key =>
    session.withStore name fun bound => session.tell (.flag (bound.store.contains key))
  | .put name key text =>
    session.withValue text fun value =>
      session.withStore name fun bound =>
        session.keep name bound.handle
          (bound.store.set bound.handle.access key (.stored value) session.world)
  | .set name key datum =>
    session.withStore name fun bound =>
      session.keep name bound.handle (bound.store.set bound.handle.access key datum session.world)
  | .remove name key =>
    session.withStore name fun bound =>
      session.keep name bound.handle (bound.store.remove bound.handle.access key session.world)
  | .slot name => session.withStore name fun bound => session.tell (.text (some bound.store.slot))
  | .text name => session.withStore name fun bound => session.tell (.text (some bound.store.text))
  | .size name =>
    session.withStore name fun bound => session.tell (.count bound.store.document.length)
  | .readBeside name key =>
    session.withStore name fun bound => session.readItem key bound.handle
  | .writeBeside name key value =>
    session.withStore name fun bound => session.writeItem key value bound.handle
  | .openScripted name storage slot =>
    session.withStorage storage (session.openScripted name slot)
  | .getScripted name key default =>
    session.withScripted name (session.getScripted key default)
  | .setScripted name key value =>
    session.withScripted name fun bound =>
      session.keepScripted name bound.handle
        (bound.store.setForScript bound.handle.access key value session.world)
  | .removeScripted name key =>
    session.withScripted name fun bound =>
      session.keepScripted name bound.handle
        (bound.store.removeForScript bound.handle.access key session.world)
  | .slotScripted name =>
    session.withScripted name fun bound => session.tell (.text (some bound.store.slot))

/-- The answers to steps, each with the log lines of its step. -/
def run (session : Session) : List Step → List (Answer × List (Store.Level × String))
  | [] => []
  | first :: rest =>
    let outcome := session.step first
    (outcome.answer, Store.logOf outcome.effects) :: run outcome.session rest

end Session

end Settings
