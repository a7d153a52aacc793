import Settings.Proofs.Session.Frame
import Settings.Proofs.Storage.Writing
import Settings.Proofs.Store.Changes

/-!
# The last write wins

An area of memory is shared by every handle on it, and every store that was
opened through such a handle writes to it from a memory of its own. Which texts
are written is stated of single steps, by what a step answers and by what the
store that it names holds afterwards. One step puts the text that it writes, if
any, and changes no other item of an area; the item under a key after a run is
therefore the last text that was written there.
-/

namespace Settings

open Storage (Handle World Items)

namespace Session

/-! ### What a step writes -/

/-- The text that a direct writing through a handle leaves, when it is done. -/
def Outcome.itemWritten? (outcome : Outcome) (handle : Option Handle) (area : Nat)
    (key written text : String) : Option String :=
  match outcome.answer with
  | .done => handle.bind fun handle => handle.placed? area key written text
  | _ => none

/-- The text that a change of a named store leaves, when it succeeded: that of
all that the store holds after it, in the slot of the store. -/
def Outcome.storeWritten? (outcome : Outcome) (name : String) (area : Nat) (key : String) :
    Option String :=
  match outcome.answer with
  | .changed (.ok _) _ _ =>
    (outcome.session.stores.find? name).bind fun bound =>
      bound.handle.placed? area key bound.store.slot bound.store.text
  | _ => none

/-- The text that a change of a named store for scripts leaves, when it
succeeded. -/
def Outcome.scriptedWritten? (outcome : Outcome) (name : String) (area : Nat) (key : String) :
    Option String :=
  match outcome.answer with
  | .changedByScript (.ok _) _ =>
    (outcome.session.scripted.find? name).bind fun bound =>
      bound.handle.placed? area key bound.store.slot bound.store.text
  | _ => none

/-- The text that a change of a named store of a holder leaves, when it succeeded. -/
def Outcome.heldWritten? (outcome : Outcome) :
    Holder → String → Nat → String → Option String
  | .host => outcome.storeWritten?
  | .script => outcome.scriptedWritten?

/-- The text that a step writes under a key of an area, if it writes one. -/
def written? (session : Session) (area : Nat) (key : String) (step : Step) : Option String :=
  let outcome := session.step step
  match step with
  | .writeItem name written text =>
    outcome.itemWritten? (session.storages.find? name) area key written text
  | .writeBeside name written text =>
    outcome.itemWritten? ((session.stores.find? name).map Bound.handle) area key written text
  | .put name _ _ => outcome.storeWritten? name area key
  | .set name _ _ => outcome.storeWritten? name area key
  | .remove name _ => outcome.storeWritten? name area key
  | .setScripted name _ _ => outcome.scriptedWritten? name area key
  | .removeScripted name _ => outcome.scriptedWritten? name area key
  | _ => none

/-- The item under a key of an area. -/
def item? (session : Session) (area : Nat) (key : String) : Option String :=
  Items.find? key (session.world.area area)

/-- Between two sessions a text was put under a key of an area, or nothing was
changed there. -/
structure Puts (session : Session) (area : Nat) (key : String) (next : Session)
    (text : Option String) : Prop where
  /-- No area is gone. -/
  length_le : session.world.areas.length ≤ next.world.areas.length
  /-- What was put stands under the key; otherwise the item is the same. -/
  item_eq : area < session.world.areas.length →
    next.item? area key = text.or (session.item? area key)

variable (session : Session) (area : Nat) (key : String)

/-- Where the areas are the same, nothing was changed. -/
theorem puts_of_areas {next : Session} (h : next.world.areas = session.world.areas) :
    Puts session area key next none := by
  constructor
  · exact Nat.le_of_eq (congrArg List.length h).symm
  · intro _
    rw [item?, item?, World.area, World.area, h, Option.none_or]

/-- What a writing that is done leaves was put. -/
theorem puts_of_write {next : Session} {handle : Handle} {written text : String}
    (h : session.world.write handle written text = .ok next.world) :
    Puts session area key next (handle.placed? area key written text) :=
  ⟨Nat.le_of_eq (World.length_areas_write h).symm, fun ha => World.find?_area_write h ha key⟩

/-- A direct writing puts its text when it is done. -/
theorem puts_writeItem (handle : Handle) (written text : String) :
    Puts session area key (session.writeItem written text handle).session
      ((session.writeItem written text handle).itemWritten? (some handle) area key written
        text) := by
  unfold writeItem
  cases hw : session.world.write handle written text with
  | error error => exact puts_of_areas session area key rfl
  | ok world => exact puts_of_write session area key hw

section Held

variable {holder : Holder} {report : Storage.Error → holder.Failure}

/-- A kept change leaves the text of its store when it succeeded. -/
theorem heldWritten?_keepHeld (name : String) (handle : Handle)
    (change : Store.Change holder.Failure World) :
    (session.keepHeld holder name handle change).heldWritten? holder name area key =
      match change.result with
      | .ok _ => handle.placed? area key change.store.slot change.store.text
      | .error _ => none := by
  have hself : ((session.keepHeld holder name handle change).session.held holder).find? name =
      some ⟨handle, change.store⟩ := find?_keepHeld_self holder
  have htext := congrArg (Option.bind · fun bound =>
    bound.handle.placed? area key bound.store.slot bound.store.text) hself
  obtain ⟨result, store, world, effects⟩ := change
  cases result with
  | error error => cases holder <;> rfl
  | ok done => cases holder <;> exact htext

/-- A kept change puts the text of its store when it succeeded. -/
theorem puts_keepHeld (name : String) {store : Store} {handle : Handle}
    {change : Store.Change holder.Failure World}
    (h : change.Decided handle.access report store session.world) :
    Puts session area key (session.keepHeld holder name handle change).session
      ((session.keepHeld holder name handle change).heldWritten? holder name area key) := by
  have hworld : (session.keepHeld holder name handle change).session.world = change.world := by
    rw [session_keepHeld, world_nameStore]
  rw [heldWritten?_keepHeld]
  rcases h.settled with ⟨hresult, hwrite⟩ | ⟨⟨error, hresult⟩, hsame⟩
  · rw [hresult]
    rw [← hworld] at hwrite
    exact puts_of_write session area key hwrite
  · rw [hresult]
    exact puts_of_areas session area key (congrArg World.areas (hworld.trans hsame))

/-- A change of the store of a name puts the text of that store when there is one
and the change succeeded. -/
theorem puts_changeHeld (holder : Holder) {report : Storage.Error → holder.Failure}
    (name : String) {change : Bound → Store.Change holder.Failure World}
    (h : ∀ bound, (change bound).Decided bound.handle.access report bound.store session.world) :
    Puts session area key (session.changeHeld holder name change).session
      ((session.changeHeld holder name change).heldWritten? holder name area key) := by
  refine withHeld_cases holder
    (Q := fun outcome => Puts session area key outcome.session
      (outcome.heldWritten? holder name area key)) ?_
    fun bound _ => puts_keepHeld session area key name (h bound)
  cases holder <;> exact puts_of_areas session area key rfl

end Held

/-- A world with more areas has the same items in those that were there. -/
theorem puts_of_append {next : Session} {items : List Storage.Area}
    (h : next.world.areas = session.world.areas ++ items) : Puts session area key next none := by
  constructor
  · rw [h, List.length_append]
    omega
  · intro ha
    rw [item?, item?, World.area, World.area, h, List.getElem?_append_left ha, Option.none_or]

/-- Failures that are set leave the areas alone. -/
theorem areas_failMemory (world : World) (handle : Handle) (memory : Storage.Faults Storage.Error)
    (page : Storage.Faults Script.Value) :
    ((world.failMemory handle memory).failPage handle page).areas = world.areas := by
  cases handle <;> rfl

/-- Every step puts the text that it writes, if any, and changes no other item of
an area. -/
theorem puts_step (step : Step) :
    Puts session area key (session.step step).session (session.written? area key step) := by
  have hsame {next : Session} (h : next.world = session.world) :
      Puts session area key next none :=
    puts_of_areas session area key (congrArg World.areas h)
  cases step with
  | memory name items => exact puts_of_append session area key rfl
  | page name items => exact puts_of_areas session area key rfl
  | share name source =>
    refine withStorage_cases (Q := fun outcome => Puts session area key outcome.session none)
      (hsame rfl) fun handle _ => puts_of_areas session area key ?_
    cases handle <;> rfl
  | fail name read write =>
    exact withStorage_cases (Q := fun outcome => Puts session area key outcome.session none)
      (hsame rfl) fun handle _ =>
        puts_of_areas session area key (areas_failMemory session.world handle _ _)
  | window state => exact hsame (setWindow_same session Session.world (fun _ => rfl) state)
  | takeWindow name => exact hsame (takeWindow_same session Session.world (fun _ => rfl) name)
  | writeItem name written text =>
    refine withStorage_cases (Q := fun outcome => Puts session area key outcome.session
      (outcome.itemWritten? (session.storages.find? name) area key written text)) (hsame rfl)
      fun handle hfind => ?_
    rw [hfind]
    exact puts_writeItem session area key handle written text
  | writeBeside name written text =>
    refine withHeld_cases .host (Q := fun outcome => Puts session area key
      outcome.session
      (outcome.itemWritten? ((session.stores.find? name).map Bound.handle) area key written text))
      (hsame rfl) fun bound hfind => ?_
    have hhandle : (session.stores.find? name).map Bound.handle = some bound.handle :=
      congrArg (Option.map Bound.handle) hfind
    rw [hhandle]
    exact puts_writeItem session area key bound.handle written text
  | put name changed text =>
    exact withValue_cases (Q := fun outcome => Puts session area key outcome.session
      (outcome.storeWritten? name area key)) (fun _ => hsame rfl) fun value _ =>
        puts_changeHeld session area key .host name fun bound =>
          Store.decided_set bound.handle.access bound.store changed (.stored value) session.world
  | set name changed datum =>
    exact puts_changeHeld session area key .host name fun bound =>
      Store.decided_set bound.handle.access bound.store changed datum session.world
  | remove name changed =>
    exact puts_changeHeld session area key .host name fun bound =>
      Store.decided_remove bound.handle.access bound.store changed session.world
  | setScripted name changed value =>
    exact puts_changeHeld session area key .script name fun bound =>
      Store.decided_setForScript bound.handle.access bound.store changed value session.world
  | removeScripted name changed =>
    exact puts_changeHeld session area key .script name fun bound =>
      Store.decided_removeForScript bound.handle.access bound.store changed session.world
  | readItem | readBeside | openStore | openScripted | get | getAs | contains | slot | text
  | size | getScripted | slotScripted => exact hsame (world_of_asks session rfl)

end Session

end Settings
