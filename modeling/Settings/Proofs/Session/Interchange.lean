import Mathlib.Data.Option.Basic
import Settings.Proofs.Session.Alike
import Settings.Proofs.Session.Memory
import Settings.Proofs.Storage.Encoding

/-!
# Memory and pages are interchangeable

A run that never names the kind of its storages can be made over memory and over pages
of the browser. Both runs give the same answers and the same log lines, and after each
of their steps the storages hold the same items, unit for unit. A memory handle fails
here exactly where the page throws, with the description of what is thrown. The two
sessions correspond after every step, which is the induction.
-/

namespace Settings.Session

open Storage (Handle World Items)

/-! ### Runs over either kind of storage -/

/-- A step that does not name the kind of a storage: a store is opened, asked or
changed, or an item is read or written. -/
def Step.overEither : Step → Bool
  | .openStore .. | .get .. | .getAs .. | .contains .. | .put .. | .set .. | .remove .. => true
  | .slot .. | .text .. | .size .. => true
  | .readItem .. | .writeItem .. | .readBeside .. | .writeBeside .. => true
  | _ => false

/-- A step that can be made over memory and over pages. -/
inductive Move where
  /-- Make a storage with items. -/
  | make (name : String) (items : List (String × String))
  /-- Set or clear what reading and writing throw. -/
  | fail (storage : String) (read write : Option Script.Value)
  /-- Use what has a name. -/
  | use (step : Step) (h : step.overEither = true)

/-- A move over memory: a handle fails with the description of what is thrown. -/
def Move.inMemory : Move → Step
  | .make name items => .memory name items
  | .fail storage read write =>
    .fail storage (read.map fun thrown => .error (.refused thrown.describe))
      (write.map fun thrown => .error (.refused thrown.describe))
  | .use step _ => step

/-- A move over pages: items are handed over in units, and what is thrown is thrown. -/
def Move.inPages : Move → Step
  | .make name items =>
    .page name (items.map fun item => (Text.unitsOf item.1, Text.unitsOf item.2))
  | .fail storage read write => .fail storage (read.map .thrown) (write.map .thrown)
  | .use step _ => step

/-- The items of the storage of a name, in units. -/
def items? (session : Session) (name : String) : Option (Items Text.Units Text.Units) :=
  (session.storages.find? name).map fun handle =>
    match handle with
    | .memory area _ => (session.world.area area).encode
    | .page number => (session.world.page number).items

/-- The text under a key of the storage of a name. -/
def storedUnder? (session : Session) (name key : String) : Option (Option String) :=
  (session.storages.find? name).map fun handle => session.world.stored? handle key

/-! ### Sessions that correspond -/

/-- A handle on memory and the handle on its page. -/
inductive Twins : Handle → Handle → Prop where
  /-- Both have one number. -/
  | mk (number : Nat) : Twins (.memory number number) (.page number)

/-- The same store over memory and over its page. -/
structure TwinStores (memory paged : Bound) : Prop where
  /-- The handles belong together. -/
  handles : Twins memory.handle paged.handle
  /-- The stores are one. -/
  store_eq : paged.store = memory.store

/-- Sessions that differ in nothing but the kind of their storages. -/
structure Corresponds (memory paged : Session) : Prop where
  /-- The worlds have the same items and failures. -/
  worlds : memory.world.Corresponds paged.world
  /-- Names stand for handles that belong together. -/
  storages : ∀ name,
    Option.Rel Twins (memory.storages.find? name) (paged.storages.find? name)
  /-- Names stand for the same stores. -/
  stores : ∀ name,
    Option.Rel TwinStores (memory.stores.find? name) (paged.stores.find? name)

/-- Outcomes that cannot be told apart, after which sessions correspond. -/
abbrev SameOutcome (memory paged : Outcome) : Prop :=
  memory.Alike Corresponds paged

/-- Items that belong together do so after one more is put. -/
theorem rel_put {α β : Type} {R : α → β → Prop} {xs : Items String α} {ys : Items String β}
    (h : ∀ name, Option.Rel R (xs.find? name) (ys.find? name)) {x : α} {y : β} (hxy : R x y)
    (key name : String) : Option.Rel R ((xs.put key x).find? name) ((ys.put key y).find? name) := by
  by_cases hk : key = name
  · subst hk
    rw [Items.find?_put_self, Items.find?_put_self]
    exact .some hxy
  · rw [Items.find?_put_other hk, Items.find?_put_other hk]
    exact h name

variable {memory paged : Session}

/-- Sessions before their first step correspond. -/
theorem corresponds_start : start.Corresponds start :=
  ⟨⟨rfl, rfl⟩, fun _ => .none, fun _ => .none⟩

/-- A storage of a name holds the same items on both sides. -/
theorem Corresponds.items?_eq (h : memory.Corresponds paged) (name : String) :
    paged.items? name = memory.items? name := by
  have hrel := h.storages name
  unfold items?
  generalize memory.storages.find? name = here at hrel ⊢
  generalize paged.storages.find? name = there at hrel ⊢
  cases hrel with
  | none => rfl
  | some htwins =>
    cases htwins with
    | mk number => exact congrArg some (h.worlds.mirrors number).items_eq

/-- A storage of a name has the same text under a key on both sides. -/
theorem Corresponds.storedUnder?_eq (h : memory.Corresponds paged) (name key : String) :
    paged.storedUnder? name key = memory.storedUnder? name key := by
  have hrel := h.storages name
  unfold storedUnder?
  generalize memory.storages.find? name = here at hrel ⊢
  generalize paged.storages.find? name = there at hrel ⊢
  cases hrel with
  | none => rfl
  | some htwins =>
    cases htwins with
    | mk number => exact congrArg some (h.worlds.stored?_eq number key)

/-! ### Uses of names -/

/-- Something is done with a storage on both sides, or with none. -/
theorem Corresponds.withStorage (h : memory.Corresponds paged) (name : String)
    {use use' : Handle → Outcome}
    (huse : ∀ number, SameOutcome (use (.memory number number)) (use' (.page number))) :
    SameOutcome (memory.withStorage name use) (paged.withStorage name use') := by
  have hrel := h.storages name
  unfold Session.withStorage
  generalize memory.storages.find? name = here at hrel ⊢
  generalize paged.storages.find? name = there at hrel ⊢
  cases hrel with
  | none => exact alike_tell h .unbound
  | some htwins =>
    cases htwins with
    | mk number => exact huse number

/-- Something is done with a store on both sides, or with none. -/
theorem Corresponds.withStore (h : memory.Corresponds paged) (name : String)
    {use use' : Bound → Outcome}
    (huse : ∀ number store,
      SameOutcome (use ⟨.memory number number, store⟩) (use' ⟨.page number, store⟩)) :
    SameOutcome (memory.withStore name use) (paged.withStore name use') := by
  have hrel := h.stores name
  unfold Session.withStore
  generalize memory.stores.find? name = here at hrel ⊢
  generalize paged.stores.find? name = there at hrel ⊢
  cases hrel with
  | none => exact alike_tell h .unbound
  | @some bound twin htwins =>
    obtain ⟨handle, store⟩ := bound
    obtain ⟨handle', store'⟩ := twin
    obtain ⟨hhandles, hstore⟩ := htwins
    cases hhandles with
    | mk number => cases hstore; exact huse number store

/-- A store is asked on both sides. -/
theorem Corresponds.ask (h : memory.Corresponds paged) (name : String) (answer : Store → Answer) :
    SameOutcome (memory.withStore name fun bound => memory.tell (answer bound.store))
      (paged.withStore name fun bound => paged.tell (answer bound.store)) :=
  h.withStore name fun _ store => alike_tell h (answer store)

/-! ### Items -/

/-- An item is read alike. -/
theorem Corresponds.readItem (h : memory.Corresponds paged) (key : String) (number : Nat) :
    SameOutcome (memory.readItem key (.memory number number))
      (paged.readItem key (.page number)) := by
  unfold Session.readItem
  rw [h.worlds.read_eq]
  cases memory.world.read (.memory number number) key with
  | error error => exact alike_tell h _
  | ok text => exact alike_tell h _

/-- An item is written alike. -/
theorem Corresponds.writeItem (h : memory.Corresponds paged) (key text : String) (number : Nat) :
    SameOutcome (memory.writeItem key text (.memory number number))
      (paged.writeItem key text (.page number)) := by
  unfold Session.writeItem
  rcases h.worlds.write_cases number key text with ⟨error, hm, hp⟩ | ⟨world, world', hm, hp, hw⟩
  · rw [hm, hp]
    exact alike_tell h _
  · rw [hm, hp]
    exact ⟨rfl, rfl, hw, h.storages, h.stores⟩

/-! ### Stores -/

/-- A store that is named on both sides keeps sessions corresponding. -/
theorem Corresponds.named (h : memory.Corresponds paged) (name : String) (number : Nat)
    (store : Store) {world world' : World} (hw : world.Corresponds world') :
    Corresponds
      { memory with
        world := world
        stores := memory.stores.put name ⟨.memory number number, store⟩ }
      { paged with
        world := world'
        stores := paged.stores.put name ⟨.page number, store⟩ } := by
  have htwins : TwinStores ⟨.memory number number, store⟩ ⟨.page number, store⟩ :=
    ⟨.mk number, rfl⟩
  exact ⟨hw, h.storages, rel_put h.stores htwins name⟩

/-- A store is opened on both sides and named, or is not. -/
theorem Corresponds.openStore (h : memory.Corresponds paged) (name : String)
    (place : Option String) (number : Nat) :
    SameOutcome (memory.openStore name place (.memory number number))
      (paged.openStore name place (.page number)) :=
  alike_openStore h name (h.worlds.read_eq number _) (h.worlds.stored?_eq number _)
    fun store _ => h.named name number store h.worlds

/-- A store is written alike over memory and over its page. -/
theorem writesAlike_page {world world' : World} (h : world.Corresponds world') (number : Nat) :
    Store.WritesAlike World.Corresponds (Handle.memory number number).access
      (Handle.page number).access world world' :=
  fun slot text => h.write_cases number slot text

/-- A change is kept on both sides. -/
theorem Corresponds.keep (h : memory.Corresponds paged) (name : String) (number : Nat)
    {change change' : Store.Change Store.Error World}
    (hc : change.Alike World.Corresponds change') :
    SameOutcome (memory.keep name (.memory number number) change)
      (paged.keep name (.page number) change') :=
  alike_keep name hc (hc.worlds.stored?_eq number _) (h.named name number change.store hc.worlds)

/-! ### Steps and runs -/

/-- A step over either kind of storage cannot tell which it is. -/
theorem Corresponds.step (h : memory.Corresponds paged) {step : Step}
    (hs : step.overEither = true) : SameOutcome (memory.step step) (paged.step step) := by
  cases step with
  | openStore name storage slot => exact h.withStorage storage (h.openStore name slot)
  | readItem name key => exact h.withStorage name (h.readItem key)
  | writeItem name key value => exact h.withStorage name (h.writeItem key value)
  | readBeside name key => exact h.withStore name fun number _ => h.readItem key number
  | writeBeside name key value =>
    exact h.withStore name fun number _ => h.writeItem key value number
  | get name key default =>
    exact alike_withValue h default fun value =>
      h.ask name fun store => .text (some (store.get key value).encode)
  | getAs name key schema default =>
    exact h.ask name fun store => typedAnswer key (store.getAs schema key default)
  | contains name key => exact h.ask name fun store => .flag (store.contains key)
  | slot name => exact h.ask name fun store => .text (some store.slot)
  | text name => exact h.ask name fun store => .text (some store.text)
  | size name => exact h.ask name fun store => .count store.document.length
  | put name key stored =>
    exact alike_withValue h stored fun value => h.withStore name fun number store =>
      h.keep name number (Store.alike_set h.worlds (writesAlike_page h.worlds number) store key
        (.stored value))
  | set name key datum =>
    exact h.withStore name fun number store =>
      h.keep name number (Store.alike_set h.worlds (writesAlike_page h.worlds number) store key
        datum)
  | remove name key =>
    exact h.withStore name fun number store =>
      h.keep name number (Store.alike_persist h.worlds (writesAlike_page h.worlds number) _)
  | memory | page | share | fail | window | takeWindow => cases hs
  | openScripted | getScripted | setScripted | removeScripted | slotScripted => cases hs

/-- A storage is made and named on both sides. -/
theorem Corresponds.make (h : memory.Corresponds paged) (name : String)
    (items : List (String × String)) :
    SameOutcome (memory.step (Move.make name items).inMemory)
      (paged.step (Move.make name items).inPages) := by
  obtain ⟨number, hm, hp, hw⟩ := h.worlds.add (Items.ofEntries items)
  rw [Storage.Area.encode_ofEntries] at hp hw
  have htwins : Twins (memory.world.addArea (Items.ofEntries items)).1
      (paged.world.addPage (Items.ofEntries
        (items.map fun item => (Text.unitsOf item.1, Text.unitsOf item.2)))).1 := by
    rw [hm, hp]
    exact .mk number
  exact ⟨rfl, rfl, hw, rel_put h.storages htwins name, h.stores⟩

/-- Failures are set on both sides, those of memory being described. -/
theorem Corresponds.fail (h : memory.Corresponds paged) (name : String)
    (read write : Option Script.Value) :
    SameOutcome (memory.step (Move.fail name read write).inMemory)
      (paged.step (Move.fail name read write).inPages) := by
  have herror (fault : Option Script.Value) :
      (fault.map fun thrown => Fault.error (.refused thrown.describe)).bind Fault.error? =
        fault.map fun thrown => .refused thrown.describe := by
    cases fault <;> rfl
  have hthrown (fault : Option Script.Value) :
      (fault.map Fault.thrown).bind Fault.thrown? = fault := by
    cases fault <;> rfl
  refine h.withStorage name fun number => ⟨rfl, rfl, ?_, h.storages, h.stores⟩
  rw [herror, herror, hthrown, hthrown]
  exact h.worlds.setFaults number ⟨read, write⟩

/-- A move over memory and over pages cannot be told apart. -/
theorem Corresponds.move (h : memory.Corresponds paged) (move : Move) :
    SameOutcome (memory.step move.inMemory) (paged.step move.inPages) := by
  cases move with
  | make name items => exact h.make name items
  | fail storage read write => exact h.fail storage read write
  | use step hs => exact h.step hs

/-- After the same moves sessions correspond. -/
theorem Corresponds.after (h : memory.Corresponds paged) (moves : List Move) :
    (memory.after (moves.map Move.inMemory)).Corresponds
      (paged.after (moves.map Move.inPages)) := by
  induction moves generalizing memory paged with
  | nil => exact h
  | cons first rest ih => exact ih (h.move first).sessions

/-- The same moves are answered alike. -/
theorem Corresponds.run_eq (h : memory.Corresponds paged) (moves : List Move) :
    paged.run (moves.map Move.inPages) = memory.run (moves.map Move.inMemory) := by
  induction moves generalizing memory paged with
  | nil => rfl
  | cons first rest ih =>
    have hfirst := h.move first
    rw [List.map_cons, List.map_cons, run, run, hfirst.answer_eq, hfirst.effects_eq]
    exact congrArg _ (ih hfirst.sessions)

/-- A run over memory and a run over pages give the same answers and the same log lines,
and after each of their steps the storages of every name hold the same items, unit for
unit, and the same text under every key. -/
theorem run_inPages_eq_run_inMemory (moves : List Move) :
    start.run (moves.map Move.inPages) = start.run (moves.map Move.inMemory) ∧
    ∀ count name,
      (start.after ((moves.take count).map Move.inPages)).items? name =
          (start.after ((moves.take count).map Move.inMemory)).items? name ∧
        ∀ key, (start.after ((moves.take count).map Move.inPages)).storedUnder? name key =
          (start.after ((moves.take count).map Move.inMemory)).storedUnder? name key := by
  refine ⟨corresponds_start.run_eq moves, fun count name => ?_⟩
  have hafter := corresponds_start.after (moves.take count)
  exact ⟨hafter.items?_eq name, hafter.storedUnder?_eq name⟩

end Settings.Session
