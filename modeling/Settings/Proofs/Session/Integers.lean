import Settings.Proofs.Session.Canonical
import Settings.Proofs.Session.Interleaving
import Settings.Proofs.Session.Mapping
import Settings.Proofs.Store.Integers

/-!
# Integers in the course of a session

An integer that stands in the text over which a store is opened is held, given and written as
this integer for as long as its place is kept, whatever other steps are taken in between. What
stands at a place is kept by every step that does not revise the key at the top of the place,
and each writing writes all that is held. An integer out of the stored range stands nowhere as
an integer, and none can be set.
-/

namespace Settings.Session

open Json (Document Members Descent Stands Storable Value)
open Storage (Handle Items World)

variable {session : Session} {name : String} {path : List Descent}

/-- Steps among which no other store is opened under a name; what they set is well-formed. -/
def Undisturbed (name : String) (steps : List Step) : Prop :=
  ∀ step ∈ steps, step.Orderly ∧ ∀ storage slot, step ≠ .openStore name storage slot

/-- Steps that do not revise the key at the top of a place. -/
def Untouched (name : String) (path : List Descent) (steps : List Step) : Prop :=
  ∀ step ∈ steps, ∀ r, step.revision? name = some r → path.head? ≠ some (.member r.key)

/-- As long as a place is not touched, the store of a name has a property. -/
def Lasting (session : Session) (name : String) (path : List Descent) (P : Store → Prop) : Prop :=
  ∀ steps, Undisturbed name steps → Untouched name path steps →
    ∃ bound, (session.after steps).stores.find? name = some bound ∧ P bound.store

/-- Each later change of the store of a name writes what the store holds then, with the
literal of an integer at a place if the integer is held there. -/
def WritesInteger (session : Session) (name : String) (path : List Descent) (n : Int) : Prop :=
  ∀ steps step r, Undisturbed name (steps ++ [step]) → step.revision? name = some r →
    ∃ bound, (session.after (steps ++ [step])).stores.find? name = some bound ∧
      Store.written? ((session.after steps).step step).effects = some bound.store.text ∧
      ((∃ h, bound.store.at? path = some (.number (.integer n h))) →
        Stands bound.store.text path n)

/-! ### What is kept -/

/-- A step that does not revise a key leaves its setting. -/
theorem find?_edit_other {step : Step} {key : String}
    (h : ∀ r, step.revision? name = some r → key ≠ r.key) (document : Document) :
    Members.find? key (step.edit name document) = Members.find? key document := by
  rw [edit_eq_revision]
  cases hr : step.revision? name with
  | none => rfl
  | some r =>
    have hkey := h r hr
    dsimp only
    unfold Revision.document
    cases r.value with
    | some value => exact Members.find?_insert_other hkey value document
    | none => exact Members.find?_erase_other hkey document

/-- A step that does not touch a place leaves the number that stands there. -/
theorem at?_step {bound : Bound} (hfind : session.stores.find? name = some bound)
    {number : Json.Number} (hat : bound.store.at? path = some (.number number)) {step : Step}
    (hopen : ∀ storage slot, step ≠ .openStore name storage slot)
    (hkept : ∀ r, step.revision? name = some r → path.head? ≠ some (.member r.key)) :
    ∃ next, (session.step step).session.stores.find? name = some next ∧
      next.store.at? path = some (.number number) := by
  obtain ⟨key, rest, rfl⟩ := Store.head_of_at?_number hat
  have hkey : ∀ r, step.revision? name = some r → key ≠ r.key := by
    rintro r hr rfl
    exact hkept r hr rfl
  have hsame : (bound.edited (step.edit name)).store.find? key = bound.store.find? key :=
    find?_edit_other hkey bound.store.document
  exact ⟨_, find?_stores_step hfind hopen, (Store.at?_congr hsame rest).trans hat⟩

/-- Steps that do not touch a place leave the number that stands there. -/
theorem at?_after {bound : Bound} (hfind : session.stores.find? name = some bound)
    {number : Json.Number} (hat : bound.store.at? path = some (.number number))
    {steps : List Step} (hsteps : Undisturbed name steps) (hkept : Untouched name path steps) :
    ∃ later, (session.after steps).stores.find? name = some later ∧
      later.store.at? path = some (.number number) := by
  induction steps generalizing session bound with
  | nil => exact ⟨bound, hfind, hat⟩
  | cons first rest ih =>
    obtain ⟨hfirst, hrest⟩ := List.forall_mem_cons.mp hsteps
    obtain ⟨hkeptFirst, hkeptRest⟩ := List.forall_mem_cons.mp hkept
    obtain ⟨next, hnext, hatNext⟩ := at?_step hfind hat hfirst.2 hkeptFirst
    exact ih hnext hatNext hrest hkeptRest

/-! ### What is written -/

/-- A step that revises the store of a name writes the text of this store. -/
theorem written?_of_revision {bound : Bound} (hfind : session.stores.find? name = some bound)
    {step : Step} {r : Revision} (hr : step.revision? name = some r) :
    ∃ next, (session.step step).session.stores.find? name = some next ∧
      Store.written? (session.step step).effects = some next.store.text := by
  rw [step_of_revision hfind hr]
  exact ⟨_, find?_keepHeld_self .host, rfl⟩

/-! ### From opening on -/

variable {history : List Step}

/-- A store that is found after a session went on undisturbed is ordered. -/
theorem ordered_later (hhistory : ∀ step ∈ history, step.Orderly) {storage : String}
    {slot : Option String} {steps : List Step} (hsteps : Undisturbed name steps) {bound : Bound}
    (hfind : (((start.after history).step (.openStore name storage slot)).session.after
      steps).stores.find? name = some bound) : bound.store.Ordered := by
  have hopened : Orderly (((start.after history).step
      (.openStore name storage slot)).session.held .host) :=
    orderly_step (orderly_reached .host fun _ => hhistory) fun _ => trivial
  exact orderly_after hopened (fun _ step hstep => (hsteps step hstep).1) name bound hfind

section Course

variable {storage : String} {slot : Option String} {handle : Handle} {store : Store}
  (hhistory : ∀ step ∈ history, step.Orderly)
  (hstorage : (start.after history).storages.find? storage = some handle)
  (hopen : (Store.openSlot handle.access (slot.getD Store.defaultSlot)
    (start.after history).world).1 = .ok store)

include hstorage hopen

/-- A store that is opened stands under its name. -/
theorem find?_opened :
    ((start.after history).step (.openStore name storage slot)).session.stores.find? name =
      some ⟨handle, store⟩ := by
  have hstep : (start.after history).step (.openStore name storage slot) =
      (start.after history).openStore name slot handle := withStorage_of_find? hstorage _
  rw [hstep]
  exact find?_openHeld_self .host hopen

/-- A double that a store is opened with is held while its place is not touched. -/
theorem lasting_float (h : store.HoldsFloat path) :
    Lasting ((start.after history).step (.openStore name storage slot)).session name path
      fun store => store.HoldsFloat path := by
  intro steps hsteps hkept
  obtain ⟨x, hat⟩ := h.at?_eq
  obtain ⟨later, hfind, hlast⟩ := at?_after (find?_opened hstorage hopen) hat hsteps hkept
  exact ⟨later, hfind, Store.holdsFloat_of_at? ⟨x, hlast⟩⟩

include hhistory

/-- So is an integer. -/
theorem lasting_integer {n : Int} (h : store.HoldsInteger path n) :
    Lasting ((start.after history).step (.openStore name storage slot)).session name path
      fun store => store.HoldsInteger path n := by
  intro steps hsteps hkept
  obtain ⟨hrange, hat⟩ := h.at?_eq
  obtain ⟨later, hfind, hlast⟩ := at?_after (find?_opened hstorage hopen) hat hsteps hkept
  have ho := ordered_later hhistory hsteps hfind
  exact ⟨later, hfind, Store.holdsInteger_of_at? ho ⟨hrange, hlast⟩⟩

/-- Each later change of the store writes the integers that it holds. -/
theorem writesInteger_of_opened (path : List Descent) (n : Int) :
    WritesInteger ((start.after history).step (.openStore name storage slot)).session name path
      n := by
  intro steps step r hsteps hr
  have hopened : ((start.after history).step (.openStore name storage slot)).session.stores.find?
      name = some ⟨handle, store⟩ := find?_opened hstorage hopen
  have hfind := find?_stores_after hopened fun s hs => (hsteps s (List.mem_append_left _ hs)).2
  obtain ⟨later, hlater, hwritten⟩ := written?_of_revision hfind hr
  have hafter : (((start.after history).step (.openStore name storage slot)).session.after
      (steps ++ [step])).stores.find? name = some later := by
    rw [after_append]
    exact hlater
  have ho := ordered_later hhistory hsteps hafter
  exact ⟨later, hafter, hwritten, fun hat => (Store.holdsInteger_of_at? ho hat).stands⟩

end Course

/-- Integers are never changed. Where an integer stands in plain digits in the text of a slot,
not hidden by a later member, one from `-2 ^ 63` to `2 ^ 64 - 1` is held by the store that is
opened over the text, is held as long as the place is not touched, is given by typed reads of
all kinds that have it and refused by the others, and each later writing of settings that hold
it has its literal. One out of these bounds makes the text malformed or is a double, which no
typed read gives as an integer. A set of an integer is refused for its stored form exactly when
it is out of the bounds; otherwise the integer is held and its literal written. -/
theorem integers_unchanged (hhistory : ∀ step ∈ history, step.Orderly) (n : Int) :
    (∀ (name : String) {storage : String} {slot : Option String} {handle : Handle}
        {text : String} {path : List Descent},
      (start.after history).storages.find? storage = some handle →
      (start.after history).world.read handle (slot.getD Store.defaultSlot) = .ok (some text) →
      Stands text path n →
      let result := (Store.openSlot handle.access (slot.getD Store.defaultSlot)
        (start.after history).world).1
      let opened := ((start.after history).step (.openStore name storage slot)).session
      (Storable n → ∀ store, result = .ok store →
        store.HoldsInteger path n ∧
        Lasting opened name path (fun store => store.HoldsInteger path n) ∧
        WritesInteger opened name path n) ∧
      (¬Storable n →
        Store.OpensOutOfRange text path (slot.getD Store.defaultSlot) result ∧
        ∀ store, result = .ok store →
          Lasting opened name path fun store => store.HoldsFloat path)) ∧
    ∀ name bound key, (start.after history).stores.find? name = some bound →
      Store.SetsInteger bound.handle.access bound.store key n (start.after history).world := by
  have hstores : Orderly ((start.after history).held .host) :=
    orderly_reached .host fun _ => hhistory
  refine ⟨?_, fun name bound key hfind => Store.setsInteger (hstores name bound hfind) key n _ _⟩
  intro name storage slot handle text path hstorage hread hstands result opened
  have haccess : handle.access.read (slot.getD Store.defaultSlot) (start.after history).world =
      .ok (some text) := hread
  refine ⟨fun hn store hopen => ?_, fun hn => ?_⟩
  · have hholds := Store.holdsInteger_of_opened haccess hstands hn hopen
    exact ⟨hholds, lasting_integer hhistory hstorage hopen hholds,
      writesInteger_of_opened hhistory hstorage hopen path n⟩
  · have hopens : Store.OpensOutOfRange text path (slot.getD Store.defaultSlot) result :=
      Store.opensOutOfRange haccess hstands hn
    refine ⟨hopens, fun store hopen => ?_⟩
    rw [hopen] at hopens
    cases hopens with
    | opened hholds => exact lasting_float hstorage hopen hholds

/-- A member is hidden by a later one with the greatest storable integer; another has the next
integer. -/
def identifierText : String :=
  "\x7b\"id\":1,\"over\":18446744073709551616,\"id\":18446744073709551615\x7d"

/-- An area of memory has this text, and a store is open over an empty one. -/
def identifierHistory : List Step :=
  [.memory "empty" [], .openStore "first" "empty" none,
    .memory "area" [("operaton", identifierText)]]

/-- What the text spells. -/
theorem identifierText_spells :
    Json.SpellsText identifierText.toList (.object [
      ([.char 'i', .char 'd'], .number ⟨false, ['1'], [], none⟩),
      ([.char 'o', .char 'v', .char 'e', .char 'r'],
        .number ⟨false, "18446744073709551616".toList, [], none⟩),
      ([.char 'i', .char 'd'], .number ⟨false, "18446744073709551615".toList, [], none⟩)]) :=
  Json.readTree_ok_iff.mp rfl

/-- The greatest storable integer stands under the repeated key. -/
theorem identifierText_id : Stands identifierText [.member "id"] 18446744073709551615 := by
  have hliteral : Json.integerLiteral 18446744073709551615 =
      ⟨false, "18446744073709551615".toList, [], none⟩ := by decide
  have hkey : Json.Decodes [.char 'i', .char 'd'] "id".toList :=
    Json.decodes_escapedPieces "id".toList
  refine ⟨_, identifierText_spells, ?_⟩
  rw [hliteral]
  exact @Json.Tree.At.member [_, _] [] _ _ _ _ _ hkey nofun (.here _)

/-- The next integer stands under the other key. -/
theorem identifierText_over : Stands identifierText [.member "over"] 18446744073709551616 := by
  have hliteral : Json.integerLiteral 18446744073709551616 =
      ⟨false, "18446744073709551616".toList, [], none⟩ := by decide
  have hkey : Json.Decodes [.char 'o', .char 'v', .char 'e', .char 'r'] "over".toList :=
    Json.decodes_escapedPieces "over".toList
  refine ⟨_, identifierText_spells, ?_⟩
  rw [hliteral]
  refine @Json.Tree.At.member [_] [_] _ _ _ _ _ hkey (fun e he hid => ?_) (.here _)
  rw [List.mem_singleton.mp he] at hid
  have heq := hid.unique (Json.decodes_escapedPieces "id".toList)
  cases heq

/-- The text opens a store. -/
theorem identifierText_opens :
    ∃ store, (Store.openSlot (Handle.memory 1 1).access
      ((none : Option String).getD Store.defaultSlot) (start.after identifierHistory).world).1 =
        .ok store := by
  have hok : (Store.openSlot (Handle.memory 1 1).access
      ((none : Option String).getD Store.defaultSlot)
      (start.after identifierHistory).world).1.toOption.isSome = true := by decide +kernel
  generalize (Store.openSlot (Handle.memory 1 1).access
    ((none : Option String).getD Store.defaultSlot)
    (start.after identifierHistory).world).1 = result at hok
  cases result with
  | error error => cases hok
  | ok store => exact ⟨store, rfl⟩

/-- The greatest storable integer is still held after another key was set. The next integer is
held as a double, and no store takes it as an integer. -/
theorem integers_unchanged_identifier :
    (∃ bound, (((start.after identifierHistory).step (.openStore "s" "area" none)).session.after
        [.set "s" "other" (.bool true)]).stores.find? "s" = some bound ∧
      bound.store.HoldsInteger [.member "id"] 18446744073709551615) ∧
    (∃ bound, ((start.after identifierHistory).step
        (.openStore "s" "area" none)).session.stores.find? "s" = some bound ∧
      bound.store.HoldsFloat [.member "over"]) ∧
    ∃ bound, (start.after identifierHistory).stores.find? "first" = some bound ∧
      ∃ reason, (bound.store.set bound.handle.access "other" (.integer 18446744073709551616)
        (start.after identifierHistory).world).result = .error (.unstorable "other" reason) := by
  have hhistory : ∀ step ∈ identifierHistory, step.Orderly := by
    simp [identifierHistory, Step.Orderly]
  have hstorage : (start.after identifierHistory).storages.find? "area" =
      some (.memory 1 1) := rfl
  have hread : (start.after identifierHistory).world.read (.memory 1 1)
      ((none : Option String).getD Store.defaultSlot) = .ok (some identifierText) := rfl
  have hfirst : (start.after identifierHistory).stores.find? "first" =
      some ⟨.memory 0 0, ⟨Store.defaultSlot, []⟩⟩ := rfl
  have hgreatest : Storable 18446744073709551615 := by norm_num [Storable]
  have hnext : ¬Storable 18446744073709551616 := by norm_num [Storable]
  have hundisturbed : Undisturbed "s" [.set "s" "other" (.bool true)] := by
    simp [Undisturbed, Step.Orderly, Datum.Ordered]
  have huntouched : Untouched "s" [.member "id"] [.set "s" "other" (.bool true)] := by
    simp [Untouched, Step.revision?, Datum.toValue, Except.toOption]
  obtain ⟨store, hopen⟩ := identifierText_opens
  obtain ⟨hinside, -⟩ := (integers_unchanged hhistory _).1 "s" hstorage hread
    identifierText_id
  obtain ⟨-, hlasting, -⟩ := hinside hgreatest store hopen
  obtain ⟨houtside, hsets⟩ := integers_unchanged hhistory 18446744073709551616
  obtain ⟨-, hout⟩ := houtside "s" hstorage hread identifierText_over
  obtain ⟨-, hfloats⟩ := hout hnext
  have hfloat := hfloats store hopen [] (fun _ h => absurd h List.not_mem_nil)
    fun _ h => absurd h List.not_mem_nil
  rw [after] at hfloat
  have hrefused := (hsets "first" _ "other" hfirst).unstorable_iff.mpr hnext
  exact ⟨hlasting _ hundisturbed huntouched, hfloat, _, hfirst, hrefused⟩

end Settings.Session
