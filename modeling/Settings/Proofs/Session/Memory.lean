import Settings.Proofs.Session.Frame

/-!
# What stores hold in memory

The memory of a named store changes by the steps that name it and by nothing
else: neither the storage nor other stores nor failing writes have a part in it.
What a step makes of the memory is stated of the step alone, and a run makes of
it what its steps make one after another.
-/

namespace Settings.Session

open Json (Document Members)
open Storage (Handle World Items)

/-- The session after steps. -/
def after : Session → List Step → Session
  | session, [] => session
  | session, first :: rest => after (session.step first).session rest

/-- What a step makes of the settings that the store of a name holds. -/
def Step.edit (name : String) (step : Step) (document : Document) : Document :=
  match step with
  | .put store key stored =>
    if store = name then
      match Json.decode stored with
      | .ok value => Members.insert key value document
      | .error _ => document
    else document
  | .set store key datum =>
    if store = name then
      match datum.toValue with
      | .ok value => Members.insert key value document
      | .error _ => document
    else document
  | .remove store key => if store = name then Members.erase key document else document
  | _ => document

/-- A store on the same handle and slot with edited settings. -/
def Bound.edited (bound : Bound) (edit : Document → Document) : Bound :=
  ⟨bound.handle, ⟨bound.store.slot, edit bound.store.document⟩⟩

/-- The store that a set of a typed value leaves, whether its writing fails or
not. -/
theorem store_set {σ : Type} (access : Storage.Access σ) (store : Store) (key : String)
    (datum : Datum) (world : σ) :
    (store.set access key datum world).store =
      ⟨store.slot, match datum.toValue with
        | .ok value => Members.insert key value store.document
        | .error _ => store.document⟩ := by
  unfold Store.set
  cases datum.toValue <;> rfl

section Held

variable {session : Session} {name : String} {bound : Bound}

/-- A change of one store is an edit of the store of a name: of that store, if it
has the name, and none at all otherwise. -/
theorem find?_changeHeld (holder : Holder)
    (hfind : (session.held holder).find? name = some bound) {store : String}
    {change : Bound → Store.Change holder.Failure World} {edit : Document → Document}
    (hself : store = name → (change bound).store = ⟨bound.store.slot, edit bound.store.document⟩)
    (hother : store ≠ name → edit bound.store.document = bound.store.document) :
    ((session.changeHeld holder store change).session.held holder).find? name =
      some (bound.edited edit) := by
  by_cases h : store = name
  · subst h
    rw [changeHeld, withHeld_of_find? holder hfind, find?_keepHeld_self, hself rfl, Bound.edited]
  · have hsame : some bound = some (bound.edited edit) := by
      rw [Bound.edited, hother h]
    rw [← hsame, ← hfind]
    exact withHeld_cases holder
      (Q := fun outcome => (outcome.session.held holder).find? name =
        (session.held holder).find? name) rfl fun _ _ => find?_keepHeld_other h

/-- Opening a store under another name leaves the store of a name as it was. -/
theorem find?_openHeld (holder : Holder)
    (hfind : (session.held holder).find? name = some bound) {store : String}
    (hne : store ≠ name) (place : Option String) (handle : Handle) :
    ((session.openHeld holder store place handle).session.held holder).find? name =
      some bound := by
  refine openHeld_cases (Q := fun next => (next.held holder).find? name = some bound)
    (fun _ _ => hfind) fun opened _ => ?_
  rw [held_nameStore, Items.find?_put_other hne, hfind]

/-- A step in which a holder neither opens a store nor changes one leaves the store of a
name as it was. -/
theorem find?_held_of_holder? (holder : Holder)
    (hfind : (session.held holder).find? name = some bound)
    {step : Step} (h : step.holder? ≠ some holder) :
    ((session.step step).session.held holder).find? name = some bound := by
  rw [held_of_holder? session h, hfind]

end Held

variable {session : Session} {name : String} {bound : Bound}

/-- A step that opens no store under a name makes of the store of that name what
it says, whatever the storage does. -/
theorem find?_stores_step (hfind : session.stores.find? name = some bound) {step : Step}
    (hopen : ∀ storage slot, step ≠ .openStore name storage slot) :
    (session.step step).session.stores.find? name = some (bound.edited (step.edit name)) := by
  cases step with
  | openStore store storage slot =>
    have hne : store ≠ name := fun h => hopen storage slot (by rw [h])
    exact withStorage_cases (Q := fun outcome => outcome.session.stores.find? name = some bound)
      hfind fun handle _ => find?_openHeld .host hfind hne slot handle
  | put store key text =>
    show (session.withValue text _).session.stores.find? name = _
    unfold withValue
    cases hv : Json.decode text with
    | error refusal =>
      have hnone : (Step.put store key text).edit name bound.store.document =
          bound.store.document := by
        rw [Step.edit, hv]
        split <;> rfl
      rw [Bound.edited, hnone]
      exact hfind
    | ok value =>
      refine find?_changeHeld .host hfind (fun h => ?_) fun h => ?_
      · rw [store_set, Datum.toValue, Step.edit, if_pos h, hv]
      · rw [Step.edit, if_neg h]
  | set store key datum =>
    refine find?_changeHeld .host hfind (fun h => ?_) fun h => ?_
    · rw [store_set, Step.edit, if_pos h]
    · rw [Step.edit, if_neg h]
  | remove store key =>
    refine find?_changeHeld .host hfind (fun h => ?_) fun h => ?_
    · rw [Step.edit, if_pos h]
      rfl
    · rw [Step.edit, if_neg h]
  | _ =>
    refine find?_held_of_holder? .host hfind fun h => ?_
    cases h

/-- After steps that open no store under a name, the store of that name holds
what the steps made of its settings one after another. -/
theorem find?_stores_after (hfind : session.stores.find? name = some bound) {steps : List Step}
    (hopen : ∀ step ∈ steps, ∀ storage slot, step ≠ .openStore name storage slot) :
    (session.after steps).stores.find? name =
      some (bound.edited fun document =>
        steps.foldl (fun document step => step.edit name document) document) := by
  induction steps generalizing session bound with
  | nil => exact hfind
  | cons first rest ih =>
    rw [after, ih (find?_stores_step hfind (hopen first List.mem_cons_self))
      fun step hstep => hopen step (List.mem_cons_of_mem _ hstep)]
    rfl

end Settings.Session
