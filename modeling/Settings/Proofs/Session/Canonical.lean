import Settings.Proofs.Json.Canonical
import Settings.Proofs.Json.Injective
import Settings.Proofs.Session.Memory
import Settings.Proofs.Store.Changes
import Settings.Proofs.Store.Ordered

/-!
# Stores write canonical texts

However a store came by its settings, it holds them ordered at every level: a text is loaded
so, whatever its spelling, a value that is set is made so, and no change takes the order
away. This is kept by every step of a session. What a store writes is therefore canonical,
and it shows the settings and nothing of their history: two writings of any two stores write
one text exactly when the stores then hold the same settings. No assumption on the printing
of numbers is needed for this.
-/

namespace Settings

open Json (Document Members Value CanonicalText)
open Storage (Handle World Items)

/-! ### What a store writes -/

namespace Store

/-- The text that an effect writes, if it writes one. -/
def Effect.written? : Effect → Option String
  | .writes _ text => some text
  | _ => none

/-- The text that is written among effects, if one is. -/
def written? (effects : List Effect) : Option String :=
  effects.findSome? Effect.written?

/-- A text that is written is written by one of the effects. -/
theorem exists_writes_of_written? {effects : List Effect} {text : String}
    (h : written? effects = some text) : ∃ slot, .writes slot text ∈ effects := by
  obtain ⟨effect, heffect, htext⟩ := List.exists_of_findSome?_eq_some h
  cases effect with
  | writes slot written =>
    cases htext
    exact ⟨slot, heffect⟩
  | reads | loaded | persisting => cases htext

end Store

/-! ### Sessions whose stores are ordered -/

namespace Session

/-- Named stores are ordered. -/
def Orderly (stores : Items String Bound) : Prop :=
  ∀ name bound, stores.find? name = some bound → bound.store.Ordered

/-- The typed value that a step sets, if it sets one, is ordered. -/
def Step.Orderly : Step → Prop
  | .set _ _ datum => datum.Ordered
  | _ => True

/-- An ordered store that is named leaves stores ordered. -/
theorem Orderly.put {stores : Items String Bound} (h : Session.Orderly stores) (name : String)
    {bound : Bound} (hb : bound.store.Ordered) : Session.Orderly (stores.put name bound) := by
  intro other found hfind
  by_cases hname : name = other
  · rw [hname, Items.find?_put_self] at hfind
    cases hfind
    exact hb
  · rw [Items.find?_put_other hname] at hfind
    exact h other found hfind

section Held

variable {session : Session} {holder : Holder}

/-- A change that keeps a store ordered leaves the named stores ordered. -/
theorem orderly_changeHeld (h : Orderly (session.held holder)) (name : String)
    {change : Bound → Store.Change holder.Failure World}
    (hc : ∀ bound, bound.store.Ordered → (change bound).store.Ordered) :
    Orderly ((session.changeHeld holder name change).session.held holder) := by
  refine withHeld_cases holder (Q := fun outcome => Orderly (outcome.session.held holder)) h
    fun bound hfind => ?_
  rw [held_keepHeld]
  exact h.put name (hc bound (h name bound hfind))

/-- A store that is opened, or not, leaves the named stores ordered. -/
theorem orderly_openHeld (h : Orderly (session.held holder)) (name : String)
    (place : Option String) (handle : Handle) :
    Orderly ((session.openHeld holder name place handle).session.held holder) := by
  refine openHeld_cases (Q := fun next => Orderly (next.held holder)) (fun _ _ => h)
    fun store hopen => ?_
  rw [held_nameStore]
  exact h.put name (Store.ordered_openSlot hopen)

/-- A step leaves the named stores of a holder ordered. Only a host program hands over
values that need not be. -/
theorem orderly_step (h : Orderly (session.held holder)) {step : Step}
    (hs : holder = .host → step.Orderly) : Orderly ((session.step step).session.held holder) := by
  by_cases hstep : step.holder? = some holder
  · cases step with
    | openStore name storage place | openScripted name storage place =>
      cases hstep
      exact withStorage_cases (Q := fun outcome => Orderly (outcome.session.held _)) h
        fun handle _ => orderly_openHeld h name place handle
    | put name key stored =>
      cases hstep
      refine withValue_cases (Q := fun outcome => Orderly (outcome.session.held .host))
        (fun _ => h) fun value hvalue => orderly_changeHeld h name fun bound hb => ?_
      exact Store.ordered_set hb key (Json.decode_ok hvalue).ordered
    | set name key datum =>
      cases hstep
      exact orderly_changeHeld h name fun bound hb => Store.ordered_set hb key (hs rfl)
    | remove name key | removeScripted name key =>
      cases hstep
      exact orderly_changeHeld h name fun bound hb => Store.ordered_erase hb key
    | setScripted name key value =>
      cases hstep
      exact orderly_changeHeld h name fun bound hb => Store.ordered_setForScript hb key value
    | _ => cases hstep
  · rw [held_of_holder? session hstep]
    exact h

/-- After steps the named stores of a holder are ordered when they were before. -/
theorem orderly_after (h : Orderly (session.held holder)) {steps : List Step}
    (hs : holder = .host → ∀ step ∈ steps, step.Orderly) :
    Orderly ((session.after steps).held holder) := by
  induction steps generalizing session with
  | nil => exact h
  | cons first rest ih =>
    have hfirst := orderly_step h fun hholder => hs hholder first List.mem_cons_self
    exact ih hfirst fun hholder step hstep => hs hholder step (List.mem_cons_of_mem first hstep)

/-- All stores that steps lead to are ordered. -/
theorem orderly_reached (holder : Holder) {steps : List Step}
    (hs : holder = .host → ∀ step ∈ steps, step.Orderly) :
    Orderly ((start.after steps).held holder) := by
  refine orderly_after (fun name bound hfind => ?_) hs
  cases holder <;> cases hfind

end Held

variable {session : Session}

/-! ### Writings -/

/-- The store that a step names and may change, as it is after the step. -/
def changed? (session : Session) (step : Step) : Option Bound :=
  match step with
  | .put name _ _ | .set name _ _ | .remove name _ =>
    (session.step step).session.stores.find? name
  | .setScripted name _ _ | .removeScripted name _ =>
    (session.step step).session.scripted.find? name
  | _ => none

/-- The settings that a store holds when a step writes it, with the text that is written;
whether the storage takes the text makes no difference. -/
def writing? (session : Session) (step : Step) : Option (Document × String) := do
  let bound ← session.changed? step
  let text ← Store.written? (session.step step).effects
  return (bound.store.document, text)

/-- A change of a named store writes the text of that store. -/
theorem written?_changeHeld (holder : Holder) {report : Storage.Error → holder.Failure}
    {name : String} {change : Bound → Store.Change holder.Failure World}
    (hc : ∀ bound,
      (change bound).Decided bound.handle.access report bound.store session.world)
    {bound : Bound} {text : String}
    (hfind : ((session.changeHeld holder name change).session.held holder).find? name = some bound)
    (hwritten : Store.written? (session.changeHeld holder name change).effects = some text) :
    text = bound.store.text := by
  revert hfind hwritten
  refine withHeld_cases holder (Q := fun outcome =>
    (outcome.session.held holder).find? name = some bound →
      Store.written? outcome.effects = some text → text = bound.store.text)
    (fun _ h => by cases h) fun found _ hfind hwritten => ?_
  rw [effects_keepHeld] at hwritten
  obtain ⟨slot, hwrites⟩ := Store.exists_writes_of_written? hwritten
  cases (find?_keepHeld_self holder).symm.trans hfind
  exact (hc found).text_eq hwrites

/-- A step that writes leaves a named store with the settings of the writing and writes
its text. -/
theorem writing_spec {step : Step} {document : Document} {text : String}
    (h : session.writing? step = some (document, text)) :
    (∃ bound, session.changed? step = some bound ∧ bound.store.document = document) ∧
      text = Json.encode document := by
  unfold writing? at h
  cases hbound : session.changed? step with
  | none => rw [hbound] at h; cases h
  | some bound =>
    cases hwritten : Store.written? (session.step step).effects with
    | none => rw [hbound, hwritten] at h; cases h
    | some written =>
      rw [hbound, hwritten] at h
      cases h
      refine ⟨⟨bound, rfl, rfl⟩, ?_⟩
      show text = bound.store.text
      cases step with
      | put name key stored =>
        revert hbound hwritten
        refine withValue_cases (Q := fun outcome => outcome.session.stores.find? name = some bound →
          Store.written? outcome.effects = some text → text = bound.store.text)
          (fun _ _ h => by cases h) fun value _ hbound hwritten => ?_
        exact written?_changeHeld .host (fun bound => Store.decided_set
          bound.handle.access bound.store key (.stored value) session.world) hbound hwritten
      | set name key datum =>
        exact written?_changeHeld .host (fun bound => Store.decided_set
          bound.handle.access bound.store key datum session.world) hbound hwritten
      | remove name key =>
        exact written?_changeHeld .host (fun bound => Store.decided_remove
          bound.handle.access bound.store key session.world) hbound hwritten
      | setScripted name key value =>
        exact written?_changeHeld .script (fun bound => Store.decided_setForScript
          bound.handle.access bound.store key value session.world) hbound hwritten
      | removeScripted name key =>
        exact written?_changeHeld .script (fun bound => Store.decided_removeForScript
          bound.handle.access bound.store key session.world) hbound hwritten
      | _ => cases hbound

/-- A store that a step of a session writes is ordered. -/
theorem ordered_of_writing {steps : List Step} {step : Step}
    (hs : ∀ step' ∈ steps ++ [step], step'.Orderly) {document : Document} {text : String}
    (h : (start.after steps).writing? step = some (document, text)) :
    (Value.object document).Ordered := by
  obtain ⟨hsteps, hstep⟩ := List.forall_mem_append.mp hs
  have hordered (holder : Holder) :
      Orderly (((start.after steps).step step).session.held holder) :=
    orderly_step (orderly_reached holder fun _ => hsteps)
      fun _ => hstep step (List.mem_singleton_self step)
  obtain ⟨⟨bound, hchanged, hdocument⟩, -⟩ := writing_spec h
  rw [← hdocument]
  cases step with
  | put name | set name | remove name => exact hordered .host name bound hchanged
  | setScripted name | removeScripted name => exact hordered .script name bound hchanged
  | _ => cases hchanged

/-- What two stores write after any two histories is the same text exactly when they hold
the same setting under every key, and every text that is written is canonical. -/
theorem writings_canonical {first second : List Step} {step step' : Step}
    (hfirst : ∀ s ∈ first ++ [step], s.Orderly) (hsecond : ∀ s ∈ second ++ [step'], s.Orderly)
    {document document' : Document} {text text' : String}
    (h : (start.after first).writing? step = some (document, text))
    (h' : (start.after second).writing? step' = some (document', text')) :
    (text = text' ↔ ∀ key, document.find? key = document'.find? key) ∧
      CanonicalText text ∧ CanonicalText text' := by
  have hordered := ordered_of_writing hfirst h
  have hordered' := ordered_of_writing hsecond h'
  obtain ⟨-, rfl⟩ := writing_spec h
  obtain ⟨-, rfl⟩ := writing_spec h'
  refine ⟨⟨fun heq key => ?_, fun hfind => ?_⟩, Json.canonical_encode hordered,
    Json.canonical_encode hordered'⟩
  · rw [Json.encode_inj heq]
  · have hascending := (Json.ordered_object_iff.mp hordered).1
    have hascending' := (Json.ordered_object_iff.mp hordered').1
    rw [Members.ext_find? hascending hascending' hfind]

/-- A store is opened over a text with blanks, a repeated key and keys out of order, and is
given an object. -/
def spelledHistory : List Step :=
  [.memory "area" [("operaton", " \x7b \"b\" : 1, \"a\" : [2.50], \"b\" : 3 \x7d ")],
    .openStore "s" "area" none, .put "s" "c" "\x7b \"y\": 1, \"x\": 2 \x7d"]

/-- Another store starts empty in another slot and is given the same settings, some of them
twice. -/
def builtHistory : List Step :=
  [.memory "area" [], .openStore "s" "area" (some "other"), .put "s" "b" "true",
    .put "s" "c" "\x7b\"x\":2,\"y\":1\x7d", .put "s" "a" "[25e-1]"]

/-- What is written after both histories is one text, so the stores hold the same
settings. -/
theorem writings_canonical_spelled :
    ∃ document document' text,
      (start.after spelledHistory).writing? (.remove "s" "z") = some (document, text) ∧
      (start.after builtHistory).writing? (.put "s" "b" "3") = some (document', text) ∧
      (∀ key, document.find? key = document'.find? key) ∧ CanonicalText text := by
  have hspelled : ((start.after spelledHistory).writing? (.remove "s" "z")).map Prod.snd =
      some "\x7b\"a\":[2.5],\"b\":3,\"c\":\x7b\"x\":2,\"y\":1\x7d\x7d" := by decide +kernel
  have hbuilt : ((start.after builtHistory).writing? (.put "s" "b" "3")).map Prod.snd =
      some "\x7b\"a\":[2.5],\"b\":3,\"c\":\x7b\"x\":2,\"y\":1\x7d\x7d" := by decide +kernel
  obtain ⟨⟨document, text⟩, h, htext⟩ := Option.map_eq_some_iff.mp hspelled
  obtain ⟨⟨document', text'⟩, h', htext'⟩ := Option.map_eq_some_iff.mp hbuilt
  have hsame : text' = text := htext'.trans htext.symm
  have hfirst : ∀ s ∈ spelledHistory ++ [.remove "s" "z"], s.Orderly := by
    simp [spelledHistory, Step.Orderly]
  have hsecond : ∀ s ∈ builtHistory ++ [.put "s" "b" "3"], s.Orderly := by
    simp [builtHistory, Step.Orderly]
  have hcanonical := writings_canonical hfirst hsecond h h'
  exact ⟨document, document', text, h, hsame ▸ h', hcanonical.1.mp hsame.symm, hcanonical.2.1⟩

end Session

end Settings
