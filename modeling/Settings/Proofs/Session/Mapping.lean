import Settings.Proofs.Json.Shape
import Settings.Proofs.Session.Memory
import Settings.Proofs.Store.Load

/-!
# A store is a finite mapping

Of all that happens in a session, a store takes part only in the calls that name
it, and of these only a set whose value has a stored form and a removal change
anything. Each of them revises one key. The settings of a store are therefore
those that were loaded when it was opened, revised one after another, and every
question about them is answered by a mapping of keys to values. Which writes
failed, what stands in the storage by then and what other stores did is not asked.
-/

namespace Settings.Session

open Json (Document Members)
open Storage (Handle World Items)

/-- What one call makes of one key: a new value, or none. -/
structure Revision where
  /-- The key. -/
  key : String
  /-- Its new value. -/
  value : Option Json.Value

/-- Settings after a revision. -/
def Revision.document (revision : Revision) (document : Document) : Document :=
  match revision.value with
  | some value => Members.insert revision.key value document
  | none => Members.erase revision.key document

/-- A store after a revision of its settings. -/
def Revision.store (revision : Revision) (store : Store) : Store :=
  ⟨store.slot, revision.document store.document⟩

/-- A mapping of keys to values after a revision. -/
def Revision.mapping (revision : Revision) (mapping : String → Option Json.Value) :
    String → Option Json.Value :=
  fun key => if key = revision.key then revision.value else mapping key

/-- What a step revises in the store of a name, whether its writing fails or
not. -/
def Step.revision? (name : String) : Step → Option Revision
  | .put store key stored =>
    if store = name then (Json.decode stored).toOption.map fun value => ⟨key, some value⟩ else none
  | .set store key datum =>
    if store = name then datum.toValue.toOption.map fun value => ⟨key, some value⟩ else none
  | .remove store key => if store = name then some ⟨key, none⟩ else none
  | _ => none

/-- An edit of a step is its revision, if it has one. -/
theorem edit_eq_revision (name : String) (step : Step) (document : Document) :
    step.edit name document =
      match step.revision? name with
      | some revision => revision.document document
      | none => document := by
  cases step with
  | put store key stored =>
    by_cases hs : store = name
    · cases hv : Json.decode stored <;>
        simp only [Step.edit, Step.revision?, hs, hv, if_true, Except.toOption, Option.map,
          Revision.document]
    · simp only [Step.edit, Step.revision?, hs, if_false]
  | set store key datum =>
    by_cases hs : store = name
    · cases hv : datum.toValue <;>
        simp only [Step.edit, Step.revision?, hs, hv, if_true, Except.toOption, Option.map,
          Revision.document]
    · simp only [Step.edit, Step.revision?, hs, if_false]
  | remove store key =>
    by_cases hs : store = name <;>
      simp only [Step.edit, Step.revision?, hs, if_true, if_false, Revision.document]
  | _ => rfl

section Step

variable {session : Session} {name : String} {bound : Bound}

/-- A step that revises a store writes it as it is revised. -/
theorem step_of_revision (hfind : session.stores.find? name = some bound) {step : Step}
    {revision : Revision} (hr : step.revision? name = some revision) :
    session.step step = session.keep name bound.handle
      ((revision.store bound.store).persist bound.handle.access session.world) := by
  cases step with
  | put store key text =>
    rw [Step.revision?] at hr
    split at hr
    · next hname =>
      subst hname
      cases hdecode : Json.decode text with
      | error refusal => rw [hdecode] at hr; cases hr
      | ok value =>
        rw [hdecode] at hr
        cases hr
        show session.withValue text _ = _
        rw [withValue, hdecode]
        exact withHeld_of_find? .host hfind _
    · cases hr
  | set store key datum =>
    rw [Step.revision?] at hr
    split at hr
    · next hname =>
      subst hname
      cases hvalue : datum.toValue with
      | error reason => rw [hvalue] at hr; cases hr
      | ok value =>
        rw [hvalue] at hr
        cases hr
        refine (withHeld_of_find? .host hfind _).trans ?_
        rw [Store.set, hvalue]
        rfl
    · cases hr
  | remove store key =>
    rw [Step.revision?] at hr
    split at hr
    · next hname =>
      subst hname
      cases hr
      exact withHeld_of_find? .host hfind _
    · cases hr
  | _ => cases hr

end Step

/-- Steps edit settings as their revisions do one after another. -/
theorem foldl_edit_eq_revisions (name : String) (steps : List Step) (document : Document) :
    steps.foldl (fun document step => step.edit name document) document =
      (steps.filterMap (Step.revision? name)).foldl
        (fun document revision => revision.document document) document := by
  induction steps generalizing document with
  | nil => rfl
  | cons first rest ih =>
    rw [List.foldl_cons, ih, edit_eq_revision, List.filterMap_cons]
    cases first.revision? name <;> rfl

/-- A revision keeps the keys ascending. -/
theorem Revision.ascending {document : Document} (h : Members.Ascending document)
    (revision : Revision) : Members.Ascending (revision.document document) := by
  unfold Revision.document
  split
  · exact Members.ascending_insert _ _ h
  · exact Members.ascending_erase _ h

/-- Revised settings are found as the revised mapping says. -/
theorem Revision.find?_document {document : Document} (h : Members.Ascending document)
    (revision : Revision) (key : String) :
    Members.find? key (revision.document document) =
      revision.mapping (fun key => Members.find? key document) key := by
  unfold Revision.document Revision.mapping
  by_cases hk : key = revision.key
  · rw [hk, if_pos rfl]
    cases revision.value with
    | some value => exact Members.find?_insert_self _ _ _
    | none => exact Members.find?_erase_self _ h
  · rw [if_neg hk]
    cases revision.value with
    | some value => exact Members.find?_insert_other hk _ _
    | none => exact Members.find?_erase_other hk _

/-- Settings that are revised one after another stay in order and are found as the
mapping says that is revised with them. -/
theorem revisions_document {document : Document} (h : Members.Ascending document)
    (revisions : List Revision) :
    Members.Ascending
        (revisions.foldl (fun document revision => revision.document document) document) ∧
      ∀ key, Members.find? key
          (revisions.foldl (fun document revision => revision.document document) document) =
        revisions.foldl (fun mapping revision => revision.mapping mapping)
          (fun key => Members.find? key document) key := by
  induction revisions generalizing document with
  | nil => exact ⟨h, fun _ => rfl⟩
  | cons first rest ih =>
    obtain ⟨hasc, hfind⟩ := ih (first.ascending h)
    have hfirst : (fun key => Members.find? key (first.document document)) =
        first.mapping fun key => Members.find? key document :=
      funext (first.find?_document h)
    refine ⟨hasc, fun key => ?_⟩
    rw [List.foldl_cons, List.foldl_cons, hfind, hfirst]

/-- What a store whose settings are found as a mapping says answers: a value that
is mapped, null or not, the default only where none is, and a typed value that is
the conversion of what is mapped or a mismatch, the default never standing in for
it. -/
structure AnswersAs (store : Store) (mapping : String → Option Json.Value) : Prop where
  /-- A mapped value is got, and otherwise the default. -/
  get_eq : ∀ key default, store.get key default = (mapping key).getD default
  /-- A setting is there when a value is mapped. -/
  contains_iff : ∀ key, store.contains key = true ↔ ∃ value, mapping key = some value
  /-- Where no value is mapped a typed read gives the default. -/
  getAs_none : ∀ schema key default, mapping key = none →
    store.getAs schema key default = .ok default
  /-- A mapped value of the type is given as that type reads it. -/
  getAs_ok : ∀ schema key default value datum, mapping key = some value →
    schema.read value = .ok datum → store.getAs schema key default = .ok datum
  /-- A mapped value of another type is a mismatch. -/
  getAs_mismatch : ∀ schema key default value reason, mapping key = some value →
    schema.read value = .error reason →
      store.getAs schema key default = .error (.mismatch key reason)

/-- A store answers as the mapping by which its settings are found. -/
theorem answersAs_of_find? {store : Store} {mapping : String → Option Json.Value}
    (h : ∀ key, store.find? key = mapping key) : AnswersAs store mapping where
  get_eq key default := by rw [Store.get, h]
  contains_iff key := by rw [Store.contains, h, Option.isSome_iff_exists]
  getAs_none schema key default hn := by rw [Store.getAs, h, hn]
  getAs_ok schema key default value datum hv hd := by
    rw [Store.getAs, h, hv]
    simp only [hd, Except.mapError]
  getAs_mismatch schema key default value reason hv hr := by
    rw [Store.getAs, h, hv]
    simp only [hr, Except.mapError]

/-- A store that is opened stands under its name with what was loaded. -/
theorem find?_openStore_self {session : Session} (name : String) {storage : String}
    (slot : Option String) {handle : Handle} {text : Option String} {loaded : Document}
    (hstorage : session.storages.find? storage = some handle)
    (hread : session.world.read handle (slot.getD Store.defaultSlot) = .ok text)
    (hload : Store.load (slot.getD Store.defaultSlot) text = .ok loaded) :
    (session.step (.openStore name storage slot)).session.stores.find? name =
      some ⟨handle, ⟨slot.getD Store.defaultSlot, loaded⟩⟩ := by
  have hread' : handle.access.read (slot.getD Store.defaultSlot) session.world = .ok text := hread
  have hopen : (Store.openSlot handle.access (slot.getD Store.defaultSlot) session.world).1 =
      .ok ⟨slot.getD Store.defaultSlot, loaded⟩ := by
    simp only [Store.openSlot, hread', hload]
  have hstep : session.step (.openStore name storage slot) = session.openStore name slot handle :=
    withStorage_of_find? hstorage _
  rw [hstep]
  exact find?_openHeld_self .host hopen

/-- After a store was opened and whatever steps followed, of which none opened
another store under its name, it holds what was loaded, revised by its own calls
one after another, and answers as the mapping of keys to values that is revised
with it. -/
theorem store_refines_mapping {session : Session} (name : String) {storage : String}
    (slot : Option String) {handle : Handle} {text : Option String} {loaded : Document}
    (hstorage : session.storages.find? storage = some handle)
    (hread : session.world.read handle (slot.getD Store.defaultSlot) = .ok text)
    (hload : Store.load (slot.getD Store.defaultSlot) text = .ok loaded)
    {steps : List Step}
    (hopen : ∀ step ∈ steps, ∀ storage slot, step ≠ .openStore name storage slot) :
    let last := (session.step (.openStore name storage slot)).session.after steps
    let revisions := steps.filterMap (Step.revision? name)
    let mapping := revisions.foldl (fun mapping revision => revision.mapping mapping)
      fun key => Members.find? key loaded
    ∃ store, last.stores.find? name = some ⟨handle, store⟩ ∧
      store.slot = slot.getD Store.defaultSlot ∧
      store.document =
        revisions.foldl (fun document revision => revision.document document) loaded ∧
      Members.Ascending store.document ∧
      (∀ key, Members.find? key store.document = mapping key) ∧
      AnswersAs store mapping := by
  intro last revisions mapping
  have hlast := find?_stores_after (find?_openStore_self name slot hstorage hread hload) hopen
  obtain ⟨hasc, hfind⟩ := revisions_document (Store.load_ok hload).ascending revisions
  refine ⟨⟨slot.getD Store.defaultSlot,
    revisions.foldl (fun document revision => revision.document document) loaded⟩, ?_, rfl, rfl,
    hasc, hfind, ?_⟩
  · rw [hlast, Bound.edited, foldl_edit_eq_revisions]
  · exact answersAs_of_find? hfind

/-- An area of memory with one setting, which is null. -/
def nullSetting : Session :=
  start.after [.memory "first" [("operaton", "\x7b\"filter\":null\x7d")]]

/-- A set whose writing fails, one without a stored form, and another store over the
same slot with a direct writing before it. -/
def foreignRun : List Step :=
  [.fail "first" none (some (.error .noWindow)), .set "a" "page" (.bool true),
    .set "a" "page" (.refusing "no"), .share "second" "first",
    .writeItem "second" "operaton" "", .openStore "b" "second" none,
    .set "b" "filter" (.bool false), .remove "a" "gone"]

/-- The null setting is still got, the set whose writing failed is kept, and nothing
else is there. -/
theorem store_refines_mapping_foreignRun :
    ∃ store, ((nullSetting.step (.openStore "a" "first" none)).session.after
        foreignRun).stores.find? "a" = some ⟨.memory 0 0, store⟩ ∧
      store.get "filter" (.bool true) = .null ∧ store.get "page" .null = .bool true ∧
      store.contains "gone" = false := by
  have hstorage : nullSetting.storages.find? "first" = some (.memory 0 0) := rfl
  have hread : nullSetting.world.read (.memory 0 0) "operaton" =
      .ok (some "\x7b\"filter\":null\x7d") := rfl
  have hload : Store.load "operaton" (some "\x7b\"filter\":null\x7d") =
      .ok [("filter", .null)] := rfl
  have hopen : ∀ step ∈ foreignRun, ∀ storage slot, step ≠ .openStore "a" storage slot := by
    simp [foreignRun]
  obtain ⟨store, hfind, -, -, -, -, hanswers⟩ :=
    store_refines_mapping "a" none hstorage hread hload hopen
  refine ⟨store, hfind, ?_, ?_, ?_⟩
  · exact hanswers.get_eq "filter" (.bool true)
  · exact hanswers.get_eq "page" .null
  · refine Bool.eq_false_iff.mpr fun h => ?_
    obtain ⟨value, hvalue⟩ := (hanswers.contains_iff "gone").mp h
    cases hvalue

end Settings.Session
