import Settings.Proofs.Session.Alike
import Settings.Proofs.Session.Memory
import Settings.Proofs.Storage.Portion
import Settings.Proofs.Store.Changes

/-!
# Parties that share memory

A party of a session has a handle on an area of memory, slots of its own and names of its
own for the stores that it opens there; it sets the failures of its handle as it likes. Two
parties may have handles on one area. What a step of a party answers depends on nothing
beyond its stores, its failures and the items in its slots, and the step changes nothing
beyond them. Parties without a common name or slot therefore do not notice each other:
however their steps are interleaved, each step is answered as if one party had made all of
its steps before the other, and the same items are left.
-/

namespace Settings.Session

open Storage (Handle World Items Portion)

/-- What one of the parties of a session works with. -/
structure Party where
  /-- The name of its handle. -/
  storage : String
  /-- The handle and the slots that it uses. -/
  portion : Portion
  /-- The names of its stores. -/
  names : String → Prop

namespace Party

/-- A step that a party makes: it opens a store in a slot of its own, uses one of its
stores or sets the failures of its handle. -/
def Takes (party : Party) : Step → Prop
  | .openStore name storage place =>
    storage = party.storage ∧ party.names name ∧
      party.portion.keys (place.getD Store.defaultSlot)
  | .fail storage _ _ => storage = party.storage
  | .get name _ _ | .getAs name _ _ _ | .contains name _ => party.names name
  | .put name _ _ | .set name _ _ | .remove name _ => party.names name
  | .slot name | .text name | .size name => party.names name
  | _ => False

/-- A party has its handle, and its stores are on that handle and in its slots. -/
structure Holds (party : Party) (session : Session) : Prop where
  /-- The name of the handle stands for it. -/
  handle : session.storages.find? party.storage = some party.portion.handle
  /-- The handle and its area have been made. -/
  within : party.portion.Within session.world
  /-- A store of the party is on its handle and in one of its slots. -/
  stores : ∀ name bound, party.names name → session.stores.find? name = some bound →
    bound.handle = party.portion.handle ∧ party.portion.keys bound.store.slot

/-- Two sessions are the same for a party. -/
structure Agrees (party : Party) (session session' : Session) : Prop where
  /-- The portion of memory is the same. -/
  worlds : party.portion.Agrees session.world session'.world
  /-- The stores are the same. -/
  stores_eq : ∀ name, party.names name →
    session'.stores.find? name = session.stores.find? name

/-- One session becomes another in nothing but what a party works with. -/
structure Confines (party : Party) (session next : Session) : Prop where
  /-- Memory is changed within the portion. -/
  worlds : party.portion.Confines session.world next.world
  /-- Storages keep their names. -/
  storages_eq : next.storages = session.storages
  /-- Other names stand for the stores that they stood for. -/
  stores_eq : ∀ name, ¬ party.names name →
    next.stores.find? name = session.stores.find? name

/-- Two parties with handles of their own on one area and neither a slot nor a name in
common. -/
structure Apart (party other : Party) : Prop where
  /-- Their portions are apart. -/
  portions : party.portion.Apart other.portion
  /-- No name is used by both. -/
  names_disjoint : ∀ name, other.names name → ¬ party.names name

/-- What a step of a party leaves: the party has what it had, and nothing else is
changed. -/
structure Keeps (party : Party) (session : Session) (outcome : Outcome) : Prop where
  /-- The party still has its handle and its stores. -/
  holds : party.Holds outcome.session
  /-- Nothing beyond the party is changed. -/
  confines : party.Confines session outcome.session

/-- Two outcomes are the same for a party. -/
abbrev SameTold (party : Party) (outcome outcome' : Outcome) : Prop :=
  outcome.Alike party.Agrees outcome'

variable {party other : Party} {session session' next : Session}

/-- Being apart goes both ways. -/
theorem Apart.symm (h : party.Apart other) : other.Apart party :=
  ⟨h.portions.symm, fun name hname hother => h.names_disjoint name hother hname⟩

/-- A session agrees with itself. -/
theorem agrees_refl (party : Party) (session : Session) : party.Agrees session session :=
  ⟨Portion.agrees_refl party.portion session.world, fun _ _ => rfl⟩

/-- Agreement goes both ways. -/
theorem Agrees.symm (h : party.Agrees session session') : party.Agrees session' session :=
  ⟨h.worlds.symm, fun name hname => (h.stores_eq name hname).symm⟩

/-- Agreement with two sessions in turn. -/
theorem Agrees.trans {last : Session} (h : party.Agrees session session')
    (h' : party.Agrees session' last) : party.Agrees session last :=
  ⟨h.worlds.trans h'.worlds,
    fun name hname => (h'.stores_eq name hname).trans (h.stores_eq name hname)⟩

/-- A session that stays is confined to every party. -/
theorem confines_refl (party : Party) (session : Session) : party.Confines session session :=
  ⟨Portion.confines_refl party.portion session.world, rfl, fun _ _ => rfl⟩

/-- What is confined to a party in two turns. -/
theorem Confines.trans {last : Session} (h : party.Confines session next)
    (h' : party.Confines next last) : party.Confines session last :=
  ⟨h.worlds.trans h'.worlds, h'.storages_eq.trans h.storages_eq,
    fun name hname => (h'.stores_eq name hname).trans (h.stores_eq name hname)⟩

/-- What is confined to one party is the same for another. -/
theorem Confines.agrees (h : party.Confines session next) (ha : party.Apart other) :
    other.Agrees session next :=
  ⟨h.worlds.agrees ha.portions,
    fun name hname => h.stores_eq name (ha.names_disjoint name hname)⟩

/-- What is confined to one party leaves another what it has. -/
theorem Holds.of_confines (hh : other.Holds session) (h : party.Confines session next)
    (ha : party.Apart other) : other.Holds next := by
  refine ⟨?_, hh.within.of_confines h.worlds, fun name bound hname hfind => ?_⟩
  · rw [h.storages_eq]
    exact hh.handle
  · rw [h.stores_eq name (ha.names_disjoint name hname)] at hfind
    exact hh.stores name bound hname hfind

/-! ### What the step of a party leaves -/

/-- An answer changes nothing. -/
theorem Holds.tell (h : party.Holds session) (answer : Answer) :
    party.Keeps session (session.tell answer) :=
  ⟨h, confines_refl party session⟩

/-- Something is done with the handle of the party. -/
theorem Holds.withStorage {Q : Outcome → Prop} (h : party.Holds session) {name : String}
    (hname : name = party.storage) {use : Handle → Outcome}
    (huse : Q (use party.portion.handle)) : Q (session.withStorage name use) := by
  unfold Session.withStorage
  rw [hname, h.handle]
  exact huse

/-- Something is done with a store of the party, or with none. -/
theorem Holds.withStore (h : party.Holds session) {name : String} (hname : party.names name)
    {use : Bound → Outcome}
    (huse : ∀ store, party.portion.keys store.slot →
      party.Keeps session (use ⟨party.portion.handle, store⟩)) :
    party.Keeps session (session.withStore name use) := by
  refine withHeld_cases .host (h.tell .unbound) fun bound hfind => ?_
  obtain ⟨handle, store⟩ := bound
  obtain ⟨hhandle, hslot⟩ := h.stores name _ hname hfind
  cases hhandle
  exact huse store hslot

/-- A store that is bound to a name of the party, in a world that is changed within the
portion. -/
theorem Holds.bind (h : party.Holds session) {name : String} (hname : party.names name)
    {store : Store} (hslot : party.portion.keys store.slot) {world : World}
    (hworld : party.portion.Confines session.world world) {outcome : Outcome}
    (houtcome : outcome.session = { session with
      world := world
      stores := session.stores.put name ⟨party.portion.handle, store⟩ }) :
    party.Keeps session outcome := by
  refine ⟨?_, ?_⟩ <;> rw [houtcome]
  · refine ⟨h.handle, h.within.of_confines hworld, fun used bound hused hfind => ?_⟩
    by_cases hsame : name = used
    · subst hsame
      have hself := Items.find?_put_self name ⟨party.portion.handle, store⟩ session.stores
      have hbound : bound = ⟨party.portion.handle, store⟩ :=
        Option.some.inj (hfind.symm.trans hself)
      rw [hbound]
      exact ⟨rfl, hslot⟩
    · have hother := Items.find?_put_other hsame ⟨party.portion.handle, store⟩ session.stores
      exact h.stores used bound hused (hother.symm.trans hfind)
  · refine ⟨hworld, rfl, fun used hused => Items.find?_put_other (fun hsame => ?_) _ _⟩
    exact hused (hsame ▸ hname)

/-- A store is opened in a slot of the party, or not. -/
theorem Holds.openStore (h : party.Holds session) {name : String} (hname : party.names name)
    {place : Option String} (hplace : party.portion.keys (place.getD Store.defaultSlot)) :
    party.Keeps session (session.openStore name place party.portion.handle) := by
  unfold Session.openStore
  split
  · next store effects hopen =>
    have hslot := (Store.openSlot_loaded (congrArg Prod.fst hopen)).1
    have hkeys : party.portion.keys store.slot := by
      rw [hslot]
      exact hplace
    exact h.bind hname hkeys (Portion.confines_refl party.portion session.world) rfl
  · exact ⟨h, confines_refl party session⟩

/-- A change of a store of the party is kept. -/
theorem Holds.keep (h : party.Holds session) {name : String} (hname : party.names name)
    {change : Store.Change Store.Error World} {store : Store}
    (hslot : party.portion.keys change.store.slot)
    (hdecided : change.Decided party.portion.handle.access .storage store session.world) :
    party.Keeps session (session.keep name party.portion.handle change) := by
  have hworld : party.portion.Confines session.world change.world := by
    rcases hdecided.settled with ⟨-, hwrite⟩ | ⟨-, hsame⟩
    · exact Portion.confines_write h.within hslot hwrite
    · rw [hsame]
      exact Portion.confines_refl party.portion session.world
  exact h.bind hname hslot hworld rfl

/-- The failures of the handle of the party are set. -/
theorem Holds.fail (h : party.Holds session) {name : String} (hname : name = party.storage)
    (read write : Option Fault) : party.Keeps session (session.step (.fail name read write)) := by
  refine h.withStorage (Q := party.Keeps session) hname ?_
  have hworld := Portion.confines_fail party.portion session.world
    ⟨read.bind Fault.error?, write.bind Fault.error?⟩
  exact ⟨⟨h.handle, h.within.of_confines hworld, h.stores⟩, ⟨hworld, rfl, fun _ _ => rfl⟩⟩

/-- A typed value is set in a store of the party. -/
theorem Holds.set (h : party.Holds session) {name : String} (hname : party.names name)
    (key : String) (datum : Datum) : party.Keeps session (session.step (.set name key datum)) := by
  refine h.withStore hname fun store hslot =>
    h.keep hname ?_ (Store.decided_set _ store key datum session.world)
  rw [store_set]
  exact hslot

/-- A step of a party leaves the party what it has and changes nothing else. -/
theorem Holds.step (h : party.Holds session) {step : Step} (ht : party.Takes step) :
    party.Keeps session (session.step step) := by
  cases step with
  | openStore name storage place =>
    exact h.withStorage (Q := party.Keeps session) ht.1 (h.openStore ht.2.1 ht.2.2)
  | fail name read write => exact h.fail ht read write
  | get name key default =>
    exact withValue_cases (fun _ => h.tell _) fun _ _ => h.withStore ht fun _ _ => h.tell _
  | getAs | contains | slot | text | size => exact h.withStore ht fun _ _ => h.tell _
  | put name key stored =>
    exact withValue_cases (fun _ => h.tell _) fun value _ => h.set ht key (.stored value)
  | set name key datum => exact h.set ht key datum
  | remove name key =>
    exact h.withStore ht fun store hslot =>
      h.keep ht hslot (Store.decided_remove _ store key session.world)
  | memory | page | share | readItem | writeItem | window | takeWindow => exact ht.elim
  | readBeside | writeBeside | openScripted | getScripted | setScripted => exact ht.elim
  | removeScripted | slotScripted => exact ht.elim

/-! ### What the step of a party depends on -/

variable (h : party.Holds session) (h' : party.Holds session') (ha : party.Agrees session session')

include h ha in
/-- Something is done with a store of the party in both sessions, or with none. -/
theorem Agrees.withStore {name : String} (hname : party.names name) {use use' : Bound → Outcome}
    (huse : ∀ store, party.portion.keys store.slot →
      party.SameTold (use ⟨party.portion.handle, store⟩) (use' ⟨party.portion.handle, store⟩)) :
    party.SameTold (session.withStore name use) (session'.withStore name use') := by
  unfold Session.withStore
  rw [ha.stores_eq name hname]
  cases hfind : session.stores.find? name with
  | none => exact alike_tell ha .unbound
  | some bound =>
    obtain ⟨handle, store⟩ := bound
    obtain ⟨hhandle, hslot⟩ := h.stores name _ hname hfind
    cases hhandle
    exact huse store hslot

include h ha in
/-- Something is asked of a store of the party. -/
theorem Agrees.ask {name : String} (hname : party.names name) (answer : Store → Answer) :
    party.SameTold (session.withStore name fun bound => session.tell (answer bound.store))
      (session'.withStore name fun bound => session'.tell (answer bound.store)) :=
  ha.withStore h hname fun store _ => alike_tell ha (answer store)

/-- A store is bound to a name in both sessions. -/
theorem Agrees.bind (ha : party.Agrees session session') (name : String) (bound : Bound)
    {world world' : World} (hworld : party.portion.Agrees world world') :
    party.Agrees { session with world := world, stores := session.stores.put name bound }
      { session' with world := world', stores := session'.stores.put name bound } := by
  refine ⟨hworld, fun used hused => ?_⟩
  show Items.find? used (Items.put name bound session'.stores) =
    Items.find? used (Items.put name bound session.stores)
  by_cases hsame : name = used
  · rw [hsame, Items.find?_put_self, Items.find?_put_self]
  · rw [Items.find?_put_other hsame, Items.find?_put_other hsame, ha.stores_eq used hused]

/-- A store is opened in a slot of the party in both sessions, or in neither. -/
theorem Agrees.openStore (ha : party.Agrees session session') (name : String)
    {place : Option String} (hplace : party.portion.keys (place.getD Store.defaultSlot)) :
    party.SameTold (session.openStore name place party.portion.handle)
      (session'.openStore name place party.portion.handle) :=
  alike_openStore ha name (ha.worlds.read_eq hplace) (ha.worlds.stored?_eq hplace)
    fun store _ => ha.bind name ⟨party.portion.handle, store⟩ ha.worlds

include h h' ha in
/-- A store on the handle of the party is written alike. -/
theorem Agrees.writesAlike : Store.WritesAlike party.portion.Agrees party.portion.handle.access
    party.portion.handle.access session.world session'.world :=
  fun slot text => ha.worlds.write_cases h.within h'.within slot text

/-- A change of a store of the party is kept in both sessions. -/
theorem Agrees.keep (ha : party.Agrees session session') (name : String)
    {change change' : Store.Change Store.Error World}
    (hslot : party.portion.keys change.store.slot)
    (hc : change.Alike party.portion.Agrees change') :
    party.SameTold (session.keep name party.portion.handle change)
      (session'.keep name party.portion.handle change') :=
  alike_keep name hc (hc.worlds.stored?_eq hslot) (ha.bind name _ hc.worlds)

include h h' ha in
/-- A typed value is set in a store of the party in both sessions. -/
theorem Agrees.set {name : String} (hname : party.names name) (key : String) (datum : Datum) :
    party.SameTold (session.step (.set name key datum)) (session'.step (.set name key datum)) := by
  refine ha.withStore h hname fun store hslot =>
    ha.keep name ?_ (Store.alike_set ha.worlds (ha.writesAlike h h') store key datum)
  rw [store_set]
  exact hslot

include h h' ha in
/-- The failures of the handle of the party are set in both sessions. -/
theorem Agrees.fail {name : String} (hname : name = party.storage) (read write : Option Fault) :
    party.SameTold (session.step (.fail name read write))
      (session'.step (.fail name read write)) := by
  refine h.withStorage (Q := fun outcome => party.SameTold outcome _) hname ?_
  refine h'.withStorage (Q := fun outcome => party.SameTold _ outcome) hname ?_
  exact ⟨rfl, rfl, ha.worlds.fail h.within h'.within _, ha.stores_eq⟩

include h h' ha in
/-- A step of a party is answered alike in sessions that are the same for the party. -/
theorem Agrees.step {step : Step} (ht : party.Takes step) :
    party.SameTold (session.step step) (session'.step step) := by
  cases step with
  | openStore name storage place =>
    refine h.withStorage (Q := fun outcome => party.SameTold outcome _) ht.1 ?_
    refine h'.withStorage (Q := fun outcome => party.SameTold _ outcome) ht.1 ?_
    exact ha.openStore name ht.2.2
  | fail name read write => exact ha.fail h h' ht read write
  | get name key default =>
    exact alike_withValue ha default fun value =>
      ha.ask h ht fun store => .text (some (store.get key value).encode)
  | getAs name key schema default =>
    exact ha.ask h ht fun store => typedAnswer key (store.getAs schema key default)
  | contains name key => exact ha.ask h ht fun store => .flag (store.contains key)
  | slot name => exact ha.ask h ht fun store => .text (some store.slot)
  | text name => exact ha.ask h ht fun store => .text (some store.text)
  | size name => exact ha.ask h ht fun store => .count store.document.length
  | put name key stored =>
    exact alike_withValue ha stored fun value => ha.set h h' ht key (.stored value)
  | set name key datum => exact ha.set h h' ht key datum
  | remove name key =>
    exact ha.withStore h ht fun store hslot =>
      ha.keep name hslot (Store.alike_persist ha.worlds (ha.writesAlike h h') _)
  | memory | page | share | readItem | writeItem | window | takeWindow => exact ht.elim
  | readBeside | writeBeside | openScripted | getScripted | setScripted => exact ht.elim
  | removeScripted | slotScripted => exact ht.elim

end Party

end Settings.Session
