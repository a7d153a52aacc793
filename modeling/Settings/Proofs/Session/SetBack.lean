import Settings.Proofs.Script.Rewritten
import Settings.Proofs.Session.ScriptSets
import Settings.Proofs.Storage.Encoding
import Settings.Proofs.Storage.Reliable

/-!
# Setting what was read

A script that reads a setting and sets it again changes nothing: what it was shown is converted
back into the same value, as long as its numbers are safe integers and it is nested no deeper
than a text may be. Memory is the same, the text that is written is the one that memory has,
and where that text stood already nothing in the session is different at all.
-/

namespace Settings

open Storage (Handle World Items Area Page)

/-! ### Writing what is there -/

/-- A storage has exactly this text under a key, in a page unit by unit. -/
def Storage.World.Has (world : World) (handle : Handle) (key text : String) : Prop :=
  match handle with
  | .memory area _ => Items.find? key (world.area area) = some text
  | .page number =>
    Items.find? (Text.unitsOf key) (world.page number).items = some (Text.unitsOf text)

variable {world : World} {handle : Handle} {key text : String}

/-- A storage that works and is written what it has is the same afterwards. -/
theorem Storage.World.write_of_has (hw : handle.Working world)
    (h : world.Has handle key text) : world.write handle key text = .ok world := by
  cases handle with
  | memory area fault =>
    have hput : (world.area area).put key text = world.area area := Storage.Items.put_of_find? h
    have hwrite : (world.area area).write (world.faultsOf fault) key text =
        .ok (world.area area) := by
      rw [hw.2]
      exact congrArg Except.ok hput
    have hset : world.areas.set area (world.area area) = world.areas :=
      Storage.set_getD_self world.areas area []
    simp only [World.write, hwrite, bind, Except.bind, pure, Except.pure, hset]
  | page number =>
    have hput : (world.page number).items.put (Text.unitsOf key) (Text.unitsOf text) =
        (world.page number).items := Storage.Items.put_of_find? h
    have hnone : (world.page number).faults.write = none := by
      rw [hw.2]
      rfl
    have hwrite : (world.page number).write key text = .ok (world.page number) := by
      simp only [Page.write, hnone, hput]
    have hset : world.pages.set number (world.page number) = world.pages :=
      Storage.set_getD_self world.pages number ⟨[], .none⟩
    simp only [World.write, hwrite, bind, Except.bind, pure, Except.pure, hset]

/-- What is read of a storage that works is what stands there. -/
theorem Storage.World.read_of_working (hw : handle.Working world) (key : String) :
    world.read handle key = .ok (world.stored? handle key) := by
  cases handle with
  | memory area fault =>
    have hfaults : world.faultsOf fault = .none := hw.2
    simp only [World.read, World.stored?, Area.read, hfaults, Storage.Faults.none]
  | page number =>
    have hfaults : (world.page number).faults = .none := hw.2
    simp only [World.read, World.stored?, Page.read, hfaults, Storage.Faults.none]

/-! ### Putting what is there -/

/-- Putting a value under the key that has it changes no members. -/
theorem Json.Members.insert_of_find? {members : Json.Document} {key : String} {w : Json.Value}
    (hasc : Members.Ascending members) (h : Members.find? key members = some w) :
    Members.insert key w members = members := by
  refine Members.ext_find? (Members.ascending_insert key w hasc) hasc fun other => ?_
  by_cases ho : other = key
  · rw [ho, Members.find?_insert_self, h]
  · rw [Members.find?_insert_other ho]

/-- What a script is shown of an ordered value with safe integers is converted back into that
value, unless the value is nested too deep. -/
theorem Store.fromScript_shown {w : Json.Value} (ho : w.Ordered) (hd : w.depth ≤ 127)
    (hs : w.SafeIntegers) : Store.fromScript (Script.shown w) = .ok (some w) := by
  obtain ⟨text, tree, htext, hspells, hcarries⟩ := Script.writesBack ho hs
  have hdepth : tree.depth ≤ 127 := hcarries.depth_le.trans hd
  exact Store.fromScript_of_stores (.mk htext hspells hdepth hcarries.denotes)

namespace Session

variable {session : Session} {name : String} {bound : Bound} {w : Json.Value}

/-- A setting is read as what it is shown as, and nothing is changed. -/
theorem step_getScripted (hfind : session.scripted.find? name = some bound)
    (hvalue : bound.store.find? key = some w) (default : Script.Value) :
    session.step (.getScripted name key default) =
      session.tell (.value (Script.shown w) ((Script.shown w).same default)) := by
  refine (withHeld_of_find? .script hfind _).trans ?_
  simp only [getScripted, Store.getForScript, hvalue, Script.toScript_eq, Except.map]

/-- Setting what a setting is shown as writes the store as it is. -/
theorem step_setShown (hfind : session.scripted.find? name = some bound)
    (ho : bound.store.Ordered) (hvalue : bound.store.find? key = some w)
    (hd : w.depth ≤ 127) (hs : w.SafeIntegers) :
    session.step (.setScripted name key (Script.shown w)) =
      session.keepScripted name bound.handle
        (bound.store.persist bound.handle.access session.world).forScript := by
  obtain ⟨hasc, hordered⟩ := Json.ordered_object_iff.mp ho
  have hw : w.Ordered := hordered _ (Json.Members.mem_of_find? hvalue)
  have hsame : Json.Members.insert key w bound.store.document = bound.store.document :=
    Json.Members.insert_of_find? hasc hvalue
  have hput : bound.store.put bound.handle.access key w session.world =
      bound.store.persist bound.handle.access session.world := by
    rw [Store.put, hsame]
  rw [step_setScripted hfind, Store.setForScript, Store.fromScript_shown hw hd hs]
  dsimp only
  rw [hput]

/-- A value whose numbers are safe integers and that is nested no deeper than a text may be
goes to a script and back unchanged. In every session that steps can lead to, a script that
reads such a setting and sets what it read has changed nothing in memory. If the storage works,
the set succeeds, and the slot has the text of memory afterwards; if it had that text before,
the session is the same in all its parts. -/
theorem setBack_changes_nothing {w : Json.Value} (ho : w.Ordered) (hd : w.depth ≤ 127)
    (hs : w.SafeIntegers) :
    (Store.toScript w >>= Store.fromScript) = .ok (some w) ∧
    ∀ (steps : List Step) (name : String) (bound : Bound) (key : String),
      (start.after steps).scripted.find? name = some bound → bound.store.find? key = some w →
      ∀ default, ∃ value same,
        let session := start.after steps
        let outcome := session.step (.setScripted name key value)
        session.step (.getScripted name key default) = session.tell (.value value same) ∧
        outcome.session.scripted.find? name = some bound ∧
        (bound.handle.Working session.world →
          outcome.answer = .changedByScript (.ok ()) (some bound.store.text) ∧
          storedText outcome.session.world bound = some bound.store.text ∧
          (session.world.Has bound.handle bound.store.slot bound.store.text →
            outcome.session = session)) := by
  refine ⟨?_, ?_⟩
  · rw [Script.toScript_eq]
    exact Store.fromScript_shown ho hd hs
  intro steps name bound key hfind hvalue default
  refine ⟨Script.shown w, (Script.shown w).same default, ?_⟩
  intro session outcome
  have hordered : bound.store.Ordered :=
    orderly_reached .script nofun name bound hfind
  have hset : outcome = session.keepScripted name bound.handle
      (bound.store.persist bound.handle.access session.world).forScript :=
    step_setShown hfind hordered hvalue hd hs
  have hstore : (⟨bound.handle, bound.store⟩ : Bound) = bound := rfl
  refine ⟨step_getScripted hfind hvalue default, ?_, ?_⟩
  · rw [hset]
    exact Items.find?_put_self name bound session.scripted
  intro hworks
  obtain ⟨next, hwrite, hnext, hread⟩ :=
    bound.handle.reliable.writes session.world hworks bound.store.slot bound.store.text
  have hpersist : (bound.store.persist bound.handle.access session.world).forScript =
      ⟨.ok (), bound.store, next, [.persisting bound.store.text.utf8ByteSize bound.store.slot,
        .writes bound.store.slot bound.store.text]⟩ := by
    simp only [Store.Change.forScript, Store.persist, hwrite, Except.map, Except.mapError,
      Except.toOption, Option.getD_some]
  have hstored : storedText next bound = some bound.store.text := by
    have hthere : next.read bound.handle bound.store.slot =
        .ok (next.stored? bound.handle bound.store.slot) :=
      Storage.World.read_of_working hnext bound.store.slot
    have hback : next.read bound.handle bound.store.slot = .ok (some bound.store.text) := hread
    rw [hthere, Except.ok.injEq] at hback
    exact hback
  rw [hpersist] at hset
  refine ⟨?_, ?_, ?_⟩
  · rw [hset]
    exact congrArg (Answer.changedByScript (.ok ())) hstored
  · rw [hset]
    exact hstored
  · intro hhas
    have hsame : next = session.world := by
      have hwritten := Storage.World.write_of_has hworks hhas
      have hnextWritten : session.world.write bound.handle bound.store.slot bound.store.text =
          .ok next := hwrite
      rw [hwritten, Except.ok.injEq] at hnextWritten
      exact hnextWritten.symm
    rw [hset, hsame]
    exact nameStore_of_find? .script hfind

/-- An object whose keys a script enumerates in another order or treats apart elsewhere, with
the greatest safe integer among its values. -/
def oddKeys : Json.Value :=
  .object [("10", .array [.number (.integer (-9007199254740991) (by decide)), .null]),
    ("2", .string "😀\n"), ("__proto__", .object []), ("toJSON", .bool true)]

/-- A page whose default slot has the object under one key, and a store for scripts on it. -/
def oddKeysSteps : List Step :=
  [.page "page" [(Text.unitsOf "operaton", Text.unitsOf (Json.encode [("odd", oddKeys)]))],
    .openScripted "script" "page" none]

/-- The object comes back from a script, and the session is the same after it was read and set
again. -/
theorem setBack_changes_nothing_oddKeys :
    (Store.toScript oddKeys >>= Store.fromScript) = .ok (some oddKeys) ∧
      ∃ value same,
        (start.after oddKeysSteps).step (.getScripted "script" "odd" .null) =
          (start.after oddKeysSteps).tell (.value value same) ∧
        ((start.after oddKeysSteps).step (.setScripted "script" "odd" value)).session =
          start.after oddKeysSteps := by
  have ho : oddKeys.Ordered := by
    refine Json.ordered_object_iff.mpr ⟨?_, ?_⟩
    · simp only [Json.Members.Ascending, List.pairwise_cons, List.mem_cons, List.not_mem_nil,
        or_false, forall_eq_or_imp, forall_eq, false_implies, implies_true, List.Pairwise.nil,
        and_true]
      decide
    · simp only [List.mem_cons, List.not_mem_nil, or_false, forall_eq_or_imp, forall_eq]
      exact ⟨⟨trivial, trivial, trivial⟩, trivial, ⟨List.Pairwise.nil, trivial⟩, trivial⟩
  have hs : oddKeys.SafeIntegers := by
    intro n hn
    obtain rfl : n = .integer (-9007199254740991) (by decide) := List.mem_singleton.mp hn
    exact Nat.le_refl _
  have hd : oddKeys.depth ≤ 127 := by decide
  have hfind : (start.after oddKeysSteps).scripted.find? "script" =
      some ⟨.page 0, "operaton", [("odd", oddKeys)]⟩ := rfl
  have hworks : (Handle.page 0).Working (start.after oddKeysSteps).world := ⟨by decide, rfl⟩
  obtain ⟨hback, hall⟩ := setBack_changes_nothing ho hd hs
  obtain ⟨value, same, hget, -, hset⟩ := hall oddKeysSteps "script" _ "odd" hfind rfl .null
  obtain ⟨-, -, hsame⟩ := hset hworks
  exact ⟨hback, value, same, hget, hsame rfl⟩

end Session

end Settings
