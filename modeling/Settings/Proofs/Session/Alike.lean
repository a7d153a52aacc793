import Settings.Proofs.Store.Load
import Settings.Session.Run

/-!
# Outcomes that cannot be told apart

Two sessions that are related in some way make a step with the same answer and the same
effects, and are related again. The relation is left open here: it may be that the sessions
differ in the kind of their storages, or in what is of no concern to one of their users. A
change of a store is compared first, over worlds that are related in some way; writing is all
that such a change asks of them.
-/

namespace Settings

open Storage (Access Handle World)

/-! ### Changes -/

namespace Store

variable {ε σ τ : Type}

/-- Two changes cannot be told apart, and the worlds that they leave are related. -/
structure Change.Alike (R : σ → τ → Prop) (change : Change ε σ) (change' : Change ε τ) : Prop where
  /-- They succeed or fail alike. -/
  result_eq : change'.result = change.result
  /-- They leave the same store. -/
  store_eq : change'.store = change.store
  /-- They have the same effects. -/
  effects_eq : change'.effects = change.effects
  /-- The worlds are related afterwards. -/
  worlds : R change.world change'.world

/-- Two accesses write alike in two worlds: both fail with one failure, or both succeed and
the worlds are related again. -/
def WritesAlike (R : σ → τ → Prop) (access : Access σ) (access' : Access τ) (world : σ)
    (world' : τ) : Prop :=
  ∀ slot text,
    (∃ error, access.write slot text world = .error error ∧
      access'.write slot text world' = .error error) ∨
    ∃ next next', access.write slot text world = .ok next ∧
      access'.write slot text world' = .ok next' ∧ R next next'

variable {R : σ → τ → Prop} {access : Access σ} {access' : Access τ} {world : σ} {world' : τ}

/-- A store is written alike. -/
theorem alike_persist (hworlds : R world world')
    (hwrites : WritesAlike R access access' world world') (store : Store) :
    (store.persist access world).Alike R (store.persist access' world') := by
  unfold persist
  rcases hwrites store.slot store.text with
    ⟨error, hwrite, hwrite'⟩ | ⟨next, next', hwrite, hwrite', hnext⟩
  · rw [hwrite, hwrite']
    exact ⟨rfl, rfl, rfl, hworlds⟩
  · rw [hwrite, hwrite']
    exact ⟨rfl, rfl, rfl, hnext⟩

/-- A typed value is set alike; one without a stored form changes nothing. -/
theorem alike_set (hworlds : R world world')
    (hwrites : WritesAlike R access access' world world') (store : Store) (key : String)
    (datum : Datum) : (store.set access key datum world).Alike R
      (store.set access' key datum world') := by
  unfold Store.set
  cases datum.toValue with
  | error reason => exact ⟨rfl, rfl, rfl, hworlds⟩
  | ok value => exact alike_persist hworlds hwrites _

end Store

/-! ### Outcomes -/

namespace Session

/-- Two outcomes cannot be told apart, and the sessions that they leave are related. -/
structure Outcome.Alike (R : Session → Session → Prop) (outcome outcome' : Outcome) : Prop where
  /-- The answer is the same. -/
  answer_eq : outcome'.answer = outcome.answer
  /-- The effects are the same. -/
  effects_eq : outcome'.effects = outcome.effects
  /-- The sessions are related. -/
  sessions : R outcome.session outcome'.session

variable {R : Session → Session → Prop} {session session' : Session}

/-- An answer is told by both. -/
theorem alike_tell (h : R session session') (answer : Answer) :
    (session.tell answer).Alike R (session'.tell answer) :=
  ⟨rfl, rfl, h⟩

/-- A stored value is used by both, or its text is refused by both. -/
theorem alike_withValue (h : R session session') (text : String)
    {use use' : Json.Value → Outcome} (huse : ∀ value, (use value).Alike R (use' value)) :
    (session.withValue text use).Alike R (session'.withValue text use') := by
  unfold withValue
  cases Json.decode text with
  | error refusal => exact alike_tell h _
  | ok value => exact huse value

variable {handle handle' : Handle}

/-- A store is opened and named by both, or by neither, when both find the same in its
slot. -/
theorem alike_openStore (h : R session session') (name : String) {place : Option String}
    (hread : handle'.access.read (place.getD Store.defaultSlot) session'.world =
      handle.access.read (place.getD Store.defaultSlot) session.world)
    (hstored : session'.world.stored? handle' (place.getD Store.defaultSlot) =
      session.world.stored? handle (place.getD Store.defaultSlot))
    (hnamed : ∀ store : Store, store.slot = place.getD Store.defaultSlot →
      R { session with stores := session.stores.put name ⟨handle, store⟩ }
        { session' with stores := session'.stores.put name ⟨handle', store⟩ }) :
    (session.openStore name place handle).Alike R (session'.openStore name place handle') := by
  have hopen : Store.openSlot handle'.access (place.getD Store.defaultSlot) session'.world =
      Store.openSlot handle.access (place.getD Store.defaultSlot) session.world := by
    rw [Store.openSlot, Store.openSlot, hread]
  unfold openStore
  rw [hopen]
  cases hresult : Store.openSlot handle.access (place.getD Store.defaultSlot) session.world with
  | mk result effects =>
    cases result with
    | error error => exact ⟨rfl, rfl, h⟩
    | ok store =>
      have hslot : store.slot = place.getD Store.defaultSlot :=
        (Store.openSlot_loaded (congrArg Prod.fst hresult)).1
      rw [← hslot] at hstored
      exact ⟨congrArg (Answer.opened _ _) hstored, rfl, hnamed store hslot⟩

/-- A change is kept by both. -/
theorem alike_keep (name : String) {Q : World → World → Prop}
    {change change' : Store.Change Store.Error World} (h : change.Alike Q change')
    (hstored : change'.world.stored? handle' change.store.slot =
      change.world.stored? handle change.store.slot)
    (hnamed : R
      { session with
        world := change.world
        stores := session.stores.put name ⟨handle, change.store⟩ }
      { session' with
        world := change'.world
        stores := session'.stores.put name ⟨handle', change.store⟩ }) :
    (session.keep name handle change).Alike R (session'.keep name handle' change') := by
  obtain ⟨result, store, world, effects⟩ := change
  obtain ⟨result', store', world', effects'⟩ := change'
  obtain ⟨hresult, hstore, heffects, -⟩ := h
  cases hresult
  cases hstore
  cases heffects
  exact ⟨congrArg (Answer.changed result _) hstored, rfl, hnamed⟩

end Session

end Settings
