import Settings.Proofs.Session.Holders

/-!
# What steps leave alone

A step looks up what it names, does something with it and otherwise does nothing.
A part of the session that the use of every storage, store or value leaves as it
was is therefore left so by the step. Two such parts are followed through all
steps: the world, for steps that open a store or ask for something, and the named
stores of a holder, for steps that neither open nor change one of them.
-/

namespace Settings.Session

open Storage (Handle World Items)

section Cases

variable {session : Session} {Q : Outcome → Prop} {name : String}

/-- What is done with a storage, or nothing. -/
theorem withStorage_cases {use : Handle → Outcome} (htell : Q (session.tell .unbound))
    (huse : ∀ handle, session.storages.find? name = some handle → Q (use handle)) :
    Q (session.withStorage name use) := by
  unfold withStorage
  cases h : session.storages.find? name with
  | none => exact htell
  | some handle => exact huse handle h

/-- What is done with a storage that is found. -/
theorem withStorage_of_find? {handle : Handle} (h : session.storages.find? name = some handle)
    (use : Handle → Outcome) : session.withStorage name use = use handle := by
  rw [withStorage, h]

/-- What is done with a stored value, or nothing. -/
theorem withValue_cases {text : String} {use : Json.Value → Outcome}
    (htell : ∀ reason, Q (session.tell (.unreadable reason)))
    (huse : ∀ value, Json.decode text = .ok value → Q (use value)) :
    Q (session.withValue text use) := by
  unfold withValue
  cases h : Json.decode text with
  | error refusal => exact htell _
  | ok value => exact huse value h

end Cases

section Part

variable {session : Session} {α : Type} (part : Session → α)

/-- What every use of a storage leaves alone. -/
theorem withStorage_same (name : String) {use : Handle → Outcome}
    (h : ∀ handle, part (use handle).session = part session) :
    part (session.withStorage name use).session = part session :=
  withStorage_cases (Q := fun outcome => part outcome.session = part session) rfl
    fun handle _ => h handle

/-- What every use of a named store leaves alone. -/
theorem withHeld_same (holder : Holder) (name : String) {use : Bound → Outcome}
    (h : ∀ bound, part (use bound).session = part session) :
    part (session.withHeld holder name use).session = part session :=
  withHeld_cases holder (Q := fun outcome => part outcome.session = part session) rfl
    fun bound _ => h bound

/-- What every use of a stored value leaves alone. -/
theorem withValue_same (text : String) {use : Json.Value → Outcome}
    (h : ∀ value, part (use value).session = part session) :
    part (session.withValue text use).session = part session :=
  withValue_cases (Q := fun outcome => part outcome.session = part session) (fun _ => rfl)
    fun value _ => h value

end Part

/-! ### Single uses -/

variable (session : Session)

/-- Reading an item changes nothing. -/
theorem session_readItem (key : String) (handle : Handle) :
    (session.readItem key handle).session = session := by
  unfold readItem
  split <;> rfl

/-- A read by a script changes nothing. -/
theorem session_getScripted (key : String) (default : Script.Value) (bound : Bound) :
    (session.getScripted key default bound).session = session := by
  unfold getScripted
  split <;> rfl

/-- Writing an item leaves the named stores alone. -/
theorem held_writeItem (holder : Holder) (key value : String) (handle : Handle) :
    (session.writeItem key value handle).session.held holder = session.held holder := by
  unfold writeItem
  split
  · cases holder <;> rfl
  · rfl

/-- A store that is opened, or not, leaves the world alone. -/
theorem world_openHeld (holder : Holder) (name : String) (place : Option String)
    (handle : Handle) :
    (session.openHeld holder name place handle).session.world = session.world :=
  openHeld_cases (Q := fun next => next.world = session.world) (fun _ _ => rfl)
    fun _ _ => world_nameStore

/-- A store that is opened by one holder, or not, leaves those of another alone. -/
theorem held_openHeld_other {holder other : Holder} (h : other ≠ holder) (name : String)
    (place : Option String) (handle : Handle) :
    (session.openHeld other name place handle).session.held holder = session.held holder :=
  openHeld_cases (Q := fun next => next.held holder = session.held holder) (fun _ _ => rfl)
    fun _ _ => held_nameStore_other h

/-- A change by one holder leaves the stores of another alone. -/
theorem held_changeHeld_other {holder other : Holder} (h : other ≠ holder) (name : String)
    (change : Bound → Store.Change other.Failure World) :
    (session.changeHeld other name change).session.held holder = session.held holder := by
  refine withHeld_same (fun session => session.held holder) other name fun bound => ?_
  rw [session_keepHeld, held_nameStore_other h]
  cases holder <;> rfl

/-- What a state of the window leaves alone. -/
theorem setWindow_same {α : Type} (part : Session → α)
    (h : ∀ window, part { session with window := window } = part session) (state : WindowState) :
    part (session.setWindow state).session = part session := by
  cases state with
  | missing | bare | throwing => exact h _
  | offering name => exact withStorage_same part name fun handle => h (.offering handle)

/-- What taking the storage of the window leaves alone. -/
theorem takeWindow_same {α : Type} (part : Session → α)
    (h : ∀ storages, part { session with storages := storages } = part session) (name : String) :
    part (session.step (.takeWindow name)).session = part session := by
  unfold step
  dsimp only
  split
  · exact h _
  · rfl

/-! ### Steps that ask -/

/-- A step that opens a store or only asks for something. -/
def Step.asks : Step → Bool
  | .readItem .. | .readBeside .. | .openStore .. | .openScripted .. => true
  | .get .. | .getAs .. | .contains .. | .slot .. | .text .. | .size .. => true
  | .getScripted .. | .slotScripted .. => true
  | _ => false

/-- Opening a store, failing to open one and reading leave the world as it
was. -/
theorem world_of_asks {step : Step} (h : step.asks = true) :
    (session.step step).session.world = session.world := by
  cases step with
  | readItem name key =>
    exact withStorage_same Session.world name fun handle => by rw [session_readItem]
  | readBeside name key =>
    exact withHeld_same Session.world .host name fun bound => by rw [session_readItem]
  | openStore name storage slot =>
    exact withStorage_same Session.world storage (world_openHeld session .host name slot)
  | openScripted name storage slot =>
    exact withStorage_same Session.world storage (world_openHeld session .script name slot)
  | get name key default =>
    exact withValue_same Session.world default fun _ =>
      withHeld_same Session.world .host name fun _ => rfl
  | getScripted name key default =>
    exact withHeld_same Session.world .script name fun bound => by rw [session_getScripted]
  | getAs | contains | slot | text | size =>
    exact withHeld_same Session.world .host _ fun _ => rfl
  | slotScripted => exact withHeld_same Session.world .script _ fun _ => rfl
  | memory | page | share | fail | writeItem | window | takeWindow => cases h
  | put | set | remove | writeBeside | setScripted | removeScripted => cases h

/-! ### Steps that leave the stores of a holder alone -/

/-- Who opens or changes a store in a step. -/
def Step.holder? : Step → Option Holder
  | .openStore .. | .put .. | .set .. | .remove .. => some .host
  | .openScripted .. | .setScripted .. | .removeScripted .. => some .script
  | _ => none

/-- A step in which a holder neither opens a store nor changes one leaves the stores of
that holder as they were. -/
theorem held_of_holder? {holder : Holder} {step : Step} (h : step.holder? ≠ some holder) :
    (session.step step).session.held holder = session.held holder := by
  let part (session : Session) : Items String Bound := session.held holder
  have hother {other : Holder} (hstep : step.holder? = some other) : other ≠ holder :=
    fun hholder => h (hstep.trans (congrArg some hholder))
  cases step with
  | memory | page => cases holder <;> rfl
  | share | fail => exact withStorage_same part _ fun _ => by cases holder <;> rfl
  | readItem name key =>
    exact withStorage_same part name fun handle => by rw [session_readItem]
  | readBeside name key =>
    exact withHeld_same part .host name fun bound => by rw [session_readItem]
  | writeItem name key value =>
    exact withStorage_same part name (held_writeItem session holder key value)
  | writeBeside name key value =>
    exact withHeld_same part .host name fun bound =>
      held_writeItem session holder key value bound.handle
  | window state => exact setWindow_same session part (fun _ => by cases holder <;> rfl) state
  | takeWindow name => exact takeWindow_same session part (fun _ => by cases holder <;> rfl) name
  | get name key default =>
    exact withValue_same part default fun _ => withHeld_same part .host name fun _ => rfl
  | getAs | contains | slot | text | size => exact withHeld_same part .host _ fun _ => rfl
  | getScripted name key default =>
    exact withHeld_same part .script name fun bound => by rw [session_getScripted]
  | slotScripted => exact withHeld_same part .script _ fun _ => rfl
  | openStore name storage place | openScripted name storage place =>
    exact withStorage_same part storage (held_openHeld_other session (hother rfl) name place)
  | put name key text =>
    exact withValue_same part text fun _ => held_changeHeld_other session (hother rfl) name _
  | set name | remove name | setScripted name | removeScripted name =>
    exact held_changeHeld_other session (hother rfl) name _

end Settings.Session
