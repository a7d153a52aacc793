import Settings.Session.Run

/-!
# Who holds a store

A named store is held by a host program or by a script. Both look it up, open it and keep its
changes in one way; they differ in where the store stands and in what a failure is to them.
What is true of the stores of both is said of any holder, and what opening a store and keeping
a change do to a session is said here once.
-/

namespace Settings.Session

open Storage (Handle World Items)

/-- Who holds a named store. -/
inductive Holder where
  /-- A host program. -/
  | host
  /-- A script. -/
  | script
deriving DecidableEq

/-- What a failure is to a holder. -/
abbrev Holder.Failure : Holder → Type
  | .host => Store.Error
  | .script => Script.Value

/-- The named stores of a holder. -/
def held (session : Session) : Holder → Items String Bound
  | .host => session.stores
  | .script => session.scripted

/-- Give a name to a store of a holder. -/
def nameStore (session : Session) (holder : Holder) (name : String) (bound : Bound) : Session :=
  match holder with
  | .host => { session with stores := session.stores.put name bound }
  | .script => { session with scripted := session.scripted.put name bound }

/-- Do something with the store of a name. -/
def withHeld (session : Session) (holder : Holder) (name : String) (use : Bound → Outcome) :
    Outcome :=
  match (session.held holder).find? name with
  | some bound => use bound
  | none => session.tell .unbound

/-- Open a store on a handle and name it. -/
def openHeld (session : Session) : Holder → String → Option String → Handle → Outcome
  | .host => session.openStore
  | .script => session.openScripted

/-- Keep a change of a named store. -/
def keepHeld (session : Session) :
    (holder : Holder) → String → Handle → Store.Change holder.Failure World → Outcome
  | .host => session.keep
  | .script => session.keepScripted

/-- Change the store of a name. -/
def changeHeld (session : Session) (holder : Holder) (name : String)
    (change : Bound → Store.Change holder.Failure World) : Outcome :=
  session.withHeld holder name fun bound =>
    session.keepHeld holder name bound.handle (change bound)

variable {session : Session} {holder : Holder} {name : String} {bound : Bound}

/-! ### Naming a store -/

/-- A named store stands among those of its holder. -/
theorem held_nameStore :
    (session.nameStore holder name bound).held holder = (session.held holder).put name bound := by
  cases holder <;> rfl

/-- A store of one holder is not named among those of another. -/
theorem held_nameStore_other {other : Holder} (h : other ≠ holder) :
    (session.nameStore other name bound).held holder = session.held holder := by
  cases holder <;> cases other <;> first | rfl | exact absurd rfl h

/-- Naming a store leaves the world alone. -/
theorem world_nameStore : (session.nameStore holder name bound).world = session.world := by
  cases holder <;> rfl

/-- Naming a store as it is named changes nothing. -/
theorem nameStore_of_find? (holder : Holder) (h : (session.held holder).find? name = some bound) :
    session.nameStore holder name bound = session := by
  have hput : (session.held holder).put name bound = session.held holder := Items.put_of_find? h
  cases holder with
  | host => exact congrArg (fun stores => { session with stores := stores }) hput
  | script => exact congrArg (fun scripted => { session with scripted := scripted }) hput

/-! ### Using a store -/

/-- What is done with a store, or nothing. -/
theorem withHeld_cases (holder : Holder) {Q : Outcome → Prop} {use : Bound → Outcome}
    (htell : Q (session.tell .unbound))
    (huse : ∀ bound, (session.held holder).find? name = some bound → Q (use bound)) :
    Q (session.withHeld holder name use) := by
  unfold withHeld
  cases h : (session.held holder).find? name with
  | none => exact htell
  | some bound => exact huse bound h

/-- What is done with a store that is found. -/
theorem withHeld_of_find? (holder : Holder)
    (h : (session.held holder).find? name = some bound) (use : Bound → Outcome) :
    session.withHeld holder name use = use bound := by
  rw [withHeld, h]

/-- A store is opened and named in a session that is otherwise as before, or it is not opened
and nothing changes. -/
theorem openHeld_cases {Q : Session → Prop} {place : Option String} {handle : Handle}
    (hsame : ∀ error, (Store.openSlot handle.access (place.getD Store.defaultSlot)
      session.world).1 = .error error → Q session)
    (hopen : ∀ store, (Store.openSlot handle.access (place.getD Store.defaultSlot)
      session.world).1 = .ok store → Q (session.nameStore holder name ⟨handle, store⟩)) :
    Q (session.openHeld holder name place handle).session := by
  cases hresult : Store.openSlot handle.access (place.getD Store.defaultSlot) session.world with
  | mk result effects =>
    rw [hresult] at hsame hopen
    cases holder with
    | host =>
      show Q (session.openStore name place handle).session
      rw [openStore, hresult]
      cases result with
      | error error => exact hsame error rfl
      | ok store => exact hopen store rfl
    | script =>
      show Q (session.openScripted name place handle).session
      rw [openScripted, Store.openForScript, hresult]
      cases result with
      | error error => exact hsame error rfl
      | ok store => exact hopen store rfl

/-- A store that is opened stands under its name. -/
theorem find?_openHeld_self (holder : Holder) {place : Option String} {handle : Handle}
    {store : Store}
    (h : (Store.openSlot handle.access (place.getD Store.defaultSlot) session.world).1 =
      .ok store) :
    ((session.openHeld holder name place handle).session.held holder).find? name =
      some ⟨handle, store⟩ := by
  refine openHeld_cases (Q := fun next => (next.held holder).find? name = some ⟨handle, store⟩)
    (fun error hfailed => ?_) fun opened hopened => ?_
  · cases hfailed.symm.trans h
  · cases hopened.symm.trans h
    rw [held_nameStore]
    exact Items.find?_put_self name _ _

/-! ### Keeping a change -/

variable {handle : Handle} {change : Store.Change holder.Failure World}

/-- A kept change leaves the world of the change, in which its store is named. -/
theorem session_keepHeld : (session.keepHeld holder name handle change).session =
    { session with world := change.world }.nameStore holder name ⟨handle, change.store⟩ := by
  cases holder <;> rfl

/-- Keeping a change has the effects of the change. -/
theorem effects_keepHeld :
    (session.keepHeld holder name handle change).effects = change.effects := by
  cases holder <;> rfl

/-- A kept change is put among the stores of its holder. -/
theorem held_keepHeld : (session.keepHeld holder name handle change).session.held holder =
    (session.held holder).put name ⟨handle, change.store⟩ := by
  cases holder <;> rfl

/-- A kept change stands under the name of its store. -/
theorem find?_keepHeld_self (holder : Holder) {change : Store.Change holder.Failure World} :
    ((session.keepHeld holder name handle change).session.held holder).find? name =
      some ⟨handle, change.store⟩ := by
  rw [held_keepHeld]
  exact Items.find?_put_self name _ _

/-- A kept change leaves the stores of other names as they were. -/
theorem find?_keepHeld_other {other : String} (h : other ≠ name) :
    ((session.keepHeld holder other handle change).session.held holder).find? name =
      (session.held holder).find? name := by
  rw [held_keepHeld]
  exact Items.find?_put_other h _ _

end Settings.Session
