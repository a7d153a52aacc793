import Settings.Proofs.Session.Lockstep
import Settings.Proofs.Session.Mapping
import Settings.Proofs.Store.Changes
import Settings.Proofs.Store.Entries
import Settings.Proofs.Text.Bytes

/-!
# What a store does beyond its memory

A store reads its slot once, when it is opened, and never again; if that succeeds, the log is
told of the entries. From then on each call either changes nothing and does nothing at all, or
revises one key: then the log is told how many bytes the settings have now, and directly after
that their text is written, once. Whether the write succeeds decides how the call ends and what
the storage has afterwards, and nothing else. The lines that the log is told are stated as they
read, beside the effects that tell them. A list of effects could hide an access that it leaves
out. So it is also stated that a call is answered the same in every world when it does nothing,
that a change is the same through every access that writes as the store's does, and that the
world is changed by the one write alone.
-/

namespace Settings

open Json (Document)
open Storage (Access Handle Items World)

namespace Store

/-- What writing a store does: the log is told of the bytes, then the text is written. -/
def writing (store : Store) : List Effect :=
  [.persisting (Text.utf8 store.text).length store.slot, .writes store.slot store.text]

/-- The line that tells the log of a loaded slot with a number of entries. -/
def loadedLine (count : Nat) (slot : String) : Level × String :=
  (.debug, "Loaded " ++ toString count ++ " configuration entries from `" ++ slot ++ "`")

/-- The line that tells the log of the writing of a store. -/
def writingLine (store : Store) : Level × String :=
  (.trace, "Persisting " ++ toString (Text.utf8 store.text).length ++ " bytes to `" ++
    store.slot ++ "`")

/-- Of what opening a store does, the log is told one line. -/
theorem logOf_loaded (count : Nat) (slot : String) (effects : List Effect) :
    logOf (.reads slot :: .loaded count slot :: effects) =
      loadedLine count slot :: logOf effects :=
  rfl

/-- Of each writing the log is told one line. -/
theorem logOf_writings (stores : List Store) :
    logOf (stores.flatMap writing) = stores.map writingLine := by
  induction stores with
  | nil => rfl
  | cons first rest ih =>
    calc logOf (first.writing ++ rest.flatMap writing)
      _ = logOf first.writing ++ logOf (rest.flatMap writing) := List.filterMap_append
      _ = [first.writingLine] ++ rest.map writingLine := by rw [ih]; rfl

/-- Writing a store has the effects of one write, whether it succeeds or not. -/
theorem effects_persist {σ : Type} (store : Store) (access : Access σ) (world : σ) :
    (store.persist access world).effects = store.writing := by
  have hbytes : (Text.utf8 store.text).length = store.text.utf8ByteSize := by
    rw [Text.utf8, Array.length_toList]
    rfl
  rw [writing, hbytes, persist]

/-- A store is written alike through accesses that write alike. -/
theorem persist_congr {σ : Type} (store : Store) {access other : Access σ}
    (h : other.write = access.write) (world : σ) :
    store.persist other world = store.persist access world := by
  unfold persist
  rw [h]

end Store

namespace Session

open Store (Effect EntryCount)

/-! ### Effects of calls -/

/-- Whether a step calls the store of a name. -/
def Step.calls (name : String) : Step → Bool
  | .get store _ _ | .getAs store _ _ _ | .contains store _ => decide (store = name)
  | .put store _ _ | .set store _ _ | .remove store _ => decide (store = name)
  | .slot store | .text store | .size store => decide (store = name)
  | _ => false

/-- What the store of a name does in the course of steps. -/
def effectsOf (name : String) : Session → List Step → List Effect
  | _, [] => []
  | session, first :: rest =>
    let outcome := session.step first
    (if first.calls name then outcome.effects else []) ++ effectsOf name outcome.session rest

/-- A store as it is after each of its revisions. -/
def revised : Store → List Revision → List Store
  | _, [] => []
  | store, first :: rest => first.store store :: revised (first.store store) rest

/-- What an answer says of a store itself; the text in its slot, which is looked up beside it,
is left out. -/
def Answer.ofStore : Answer → Answer
  | .changed result whole _ => .changed result whole none
  | answer => answer

/-- A step does nothing at all, and the world has no part in what the store answers. -/
structure Quiet (session : Session) (step : Step) : Prop where
  /-- Nothing is changed. -/
  session_eq : (session.step step).session = session
  /-- Nothing is read, written or told to the log. -/
  effects_eq : (session.step step).effects = []
  /-- No line is logged. -/
  log_eq : Store.logOf (session.step step).effects = []
  /-- The answer is the same in every world. -/
  answer_eq : ∀ world : World, ({ session with world := world }.step step).answer.ofStore =
    (session.step step).answer.ofStore

/-- One write of a store was attempted, and nothing else was done. -/
structure Attempts (session : Session) (name : String) (handle : Handle) (store : Store)
    (outcome : Outcome) : Prop where
  /-- The log is told of the write, which follows directly. -/
  effects_eq : outcome.effects = store.writing
  /-- One line is logged. -/
  log_eq : Store.logOf outcome.effects = [store.writingLine]
  /-- What the storage would answer to a read makes no difference. -/
  unread : ∀ access : Access World, access.write = handle.access.write →
    outcome = session.keep name handle (store.persist access session.world)
  /-- If the write succeeds, so does the call. -/
  written : ∀ next, session.world.write handle store.slot store.text = .ok next →
    outcome.session.world = next ∧ ∃ stored, outcome.answer = .changed (.ok ()) store.text stored
  /-- If the write fails, the call fails with its failure. -/
  refused : ∀ failure, session.world.write handle store.slot store.text = .error failure →
    outcome.session.world = session.world ∧
      ∃ stored, outcome.answer = .changed (.error (.storage failure)) store.text stored

/-- A call of a store either revises it and attempts one write of it, or does nothing. -/
inductive Conducts (session : Session) (name : String) (handle : Handle) (store : Store) :
    Step → Prop where
  /-- A setting is dropped, or set to a value that has a stored form. -/
  | revises {step : Step} {revision : Revision} (hr : step.revision? name = some revision)
    (h : Attempts session name handle (revision.store store) (session.step step)) :
    Conducts session name handle store step
  /-- Nothing is asked to be changed, or a value without a stored form is refused. -/
  | quiet {step : Step} (hr : step.revision? name = none) (h : Quiet session step) :
    Conducts session name handle store step

section Call

variable {session : Session} {name : String} {bound : Bound}

/-- A step that revises a store calls it. -/
theorem calls_of_revision {step : Step} {revision : Revision}
    (h : step.revision? name = some revision) : step.calls name = true := by
  cases step with
  | put store | set store | remove store =>
    rw [Step.revision?] at h
    split at h
    · next hname => exact decide_eq_true hname
    · cases h
  | _ => cases h

/-- A step that revises a store attempts one write of it. -/
theorem attempts_of_revision (hfind : session.stores.find? name = some bound) {step : Step}
    {revision : Revision} (hr : step.revision? name = some revision) :
    Attempts session name bound.handle (revision.store bound.store) (session.step step) := by
  have hstep := step_of_revision hfind hr
  have hattempted : ((revision.store bound.store).persist bound.handle.access
      session.world).Attempted bound.handle.access .storage session.world :=
    Store.attempted_persist _
  obtain ⟨-, hsettled⟩ := hattempted
  have heffects := Store.effects_persist (revision.store bound.store) bound.handle.access
    session.world
  rw [hstep]
  refine ⟨heffects, congrArg Store.logOf heffects, ?_, ?_, ?_⟩
  · intro access haccess
    rw [Store.persist_congr _ haccess]
  · intro next hwrite
    have haccess : bound.handle.access.write (revision.store bound.store).slot
        (revision.store bound.store).text session.world = .ok next := hwrite
    rcases hsettled with ⟨hnext, hresult⟩ | ⟨failure, hfailure, -⟩
    · have hworld := hnext.symm.trans haccess
      rw [Except.ok.injEq] at hworld
      exact ⟨hworld, _, congrArg (fun result => Answer.changed result _ _) hresult⟩
    · cases hfailure.symm.trans haccess
  · intro failure hwrite
    have haccess : bound.handle.access.write (revision.store bound.store).slot
        (revision.store bound.store).text session.world = .error failure := hwrite
    rcases hsettled with ⟨hnext, -⟩ | ⟨other, hfailure, hresult, hworld⟩
    · cases hnext.symm.trans haccess
    · cases hfailure.symm.trans haccess
      exact ⟨hworld, _, congrArg (fun result => Answer.changed result _ _) hresult⟩

/-- A step that leaves the session as it is, and is answered alike in every world, does
nothing. -/
theorem quiet_of_told {step : Step} (told : Answer)
    (h : ∀ world : World, ∃ answer : Answer, answer.ofStore = told ∧
      { session with world := world }.step step = ⟨{ session with world := world }, answer, []⟩) :
    Quiet session step := by
  obtain ⟨answer, htold, hstep⟩ := h session.world
  have heffects : (session.step step).effects = [] := congrArg Outcome.effects hstep
  refine ⟨congrArg Outcome.session hstep, heffects, congrArg Store.logOf heffects,
    fun world => ?_⟩
  obtain ⟨other, hother, hstep'⟩ := h world
  rw [hstep', hother, ← htold]
  exact congrArg (fun outcome => outcome.answer.ofStore) hstep.symm

/-- A step that asks a store does nothing. -/
theorem quiet_of_ask (hfind : session.stores.find? name = some bound) {step : Step}
    (ask : Bound → Answer)
    (h : ∀ session : Session, session.step step =
      session.withStore name fun bound => session.tell (ask bound)) : Quiet session step := by
  refine quiet_of_told (ask bound).ofStore fun world => ⟨ask bound, rfl, ?_⟩
  have hmoved : { session with world := world }.stores.find? name = some bound := hfind
  rw [h]
  exact withHeld_of_find? .host hmoved _

/-- A set of a value without a stored form is refused. -/
theorem step_set_refused (hfind : session.stores.find? name = some bound) (key : String)
    {datum : Datum} {reason : Datum.Refusal} (h : datum.toValue = .error reason) :
    session.step (.set name key datum) =
      ⟨session, .changed (.error (.unstorable key reason)) bound.store.text
        (storedText session.world bound), []⟩ := by
  have hsame : session.nameStore .host name bound = session :=
    nameStore_of_find? .host hfind
  refine (withHeld_of_find? .host hfind _).trans ?_
  rw [Store.set_refused h]
  exact congrArg (Outcome.mk · _ _) hsame

/-- A step that calls a store and revises nothing does nothing. -/
theorem quiet_of_no_revision (hfind : session.stores.find? name = some bound) {step : Step}
    (hcalls : step.calls name = true) (hr : step.revision? name = none) : Quiet session step := by
  cases step with
  | get store key default =>
    obtain rfl : store = name := of_decide_eq_true hcalls
    cases hdecode : Json.decode default with
    | error refusal =>
      refine quiet_of_told (.unreadable refusal.message) fun world =>
        ⟨.unreadable refusal.message, rfl, ?_⟩
      show withValue _ default _ = _
      rw [withValue, hdecode]
      rfl
    | ok value =>
      let ask (bound : Bound) : Answer := .text (some (bound.store.get key value).encode)
      refine quiet_of_ask hfind ask fun session => ?_
      show session.withValue default _ = _
      rw [withValue, hdecode]
  | getAs store | contains store | slot store | text store | size store =>
    obtain rfl : store = name := of_decide_eq_true hcalls
    exact quiet_of_ask hfind _ fun _ => rfl
  | put store key text =>
    rw [Step.revision?, if_pos (of_decide_eq_true hcalls)] at hr
    cases hdecode : Json.decode text with
    | ok value => rw [hdecode] at hr; cases hr
    | error refusal =>
      refine quiet_of_told (.unreadable refusal.message) fun world =>
        ⟨.unreadable refusal.message, rfl, ?_⟩
      show withValue _ text _ = _
      rw [withValue, hdecode]
      rfl
  | set store key datum =>
    obtain rfl : store = name := of_decide_eq_true hcalls
    rw [Step.revision?, if_pos rfl] at hr
    cases hvalue : datum.toValue with
    | ok value => rw [hvalue] at hr; cases hr
    | error reason =>
      let told : Answer := .changed (.error (.unstorable key reason)) bound.store.text none
      refine quiet_of_told told fun world => ?_
      have hmoved : { session with world := world }.stores.find? store = some bound := hfind
      exact ⟨_, rfl, step_set_refused hmoved key hvalue⟩
  | remove store key =>
    rw [Step.revision?, if_pos (of_decide_eq_true hcalls)] at hr
    cases hr
  | _ => cases hcalls

/-- A call of a store conducts itself as such a call does. -/
theorem conducts_of_calls (hfind : session.stores.find? name = some bound) {step : Step}
    (hcalls : step.calls name = true) : Conducts session name bound.handle bound.store step := by
  cases hr : step.revision? name with
  | some revision => exact .revises hr (attempts_of_revision hfind hr)
  | none => exact .quiet hr (quiet_of_no_revision hfind hcalls hr)

/-- What a store does in the course of a step: it is written if it is revised. -/
theorem effects_step (hfind : session.stores.find? name = some bound) (step : Step) :
    (if step.calls name then (session.step step).effects else []) =
      ((step.revision? name).map fun revision => (revision.store bound.store).writing).getD [] := by
  cases hr : step.revision? name with
  | some revision =>
    rw [if_pos (calls_of_revision hr), (attempts_of_revision hfind hr).effects_eq]
    rfl
  | none =>
    split
    · next hcalls => exact (quiet_of_no_revision hfind hcalls hr).effects_eq
    · rfl

/-- The store of a name after a step that opens no other one under the name. -/
theorem find?_revised (hfind : session.stores.find? name = some bound) {step : Step}
    (hopen : ∀ storage slot, step ≠ .openStore name storage slot) :
    (session.step step).session.stores.find? name =
      some ⟨bound.handle, ((step.revision? name).map fun revision =>
        revision.store bound.store).getD bound.store⟩ := by
  rw [find?_stores_step hfind hopen, Bound.edited, edit_eq_revision]
  cases step.revision? name <;> rfl

/-- A store is written after each revision of its settings and does nothing else. -/
theorem effectsOf_eq_writings (hfind : session.stores.find? name = some bound) {steps : List Step}
    (hopen : ∀ step ∈ steps, ∀ storage slot, step ≠ .openStore name storage slot) :
    effectsOf name session steps =
      (revised bound.store (steps.filterMap (Step.revision? name))).flatMap Store.writing := by
  induction steps generalizing session bound with
  | nil => rfl
  | cons first rest ih =>
    obtain ⟨hfirst, hrest⟩ := List.forall_mem_cons.mp hopen
    have hnext := find?_revised hfind hfirst
    rw [effectsOf, effects_step hfind, ih hnext hrest, List.filterMap_cons]
    cases first.revision? name <;> rfl

end Call

/-! ### Opening and the run that follows -/

/-- How a store is opened, with the lines that are logged: its slot is read, once, and nothing
is written. If that gives settings, the log is told of the entries and the store stands under
its name; otherwise no line is logged, the session is as before and the failure is the
answer. -/
inductive Opens (session : Session) (name : String) (handle : Handle) (slot : String) :
    Outcome → List (Store.Level × String) → Prop where
  /-- The slot cannot be read. -/
  | unread {failure : Storage.Error} (hread : session.world.read handle slot = .error failure) :
    Opens session name handle slot ⟨session, .failed (.storage failure), [.reads slot]⟩ []
  /-- The text in the slot is refused. -/
  | refused {raw : Option String} {error : Store.Error}
    (hread : session.world.read handle slot = .ok raw)
    (hload : Store.load slot raw = .error error) :
    Opens session name handle slot ⟨session, .failed error, [.reads slot]⟩ []
  /-- The text in the slot gives settings. -/
  | opened {raw : Option String} {document : Document} {count : Nat}
    (hread : session.world.read handle slot = .ok raw)
    (hload : Store.load slot raw = .ok document) (hcount : EntryCount raw count) :
    Opens session name handle slot
      ⟨{ session with stores := session.stores.put name ⟨handle, ⟨slot, document⟩⟩ },
        .opened slot (Json.encode document) (session.world.stored? handle slot),
        [.reads slot, .loaded count slot]⟩ [Store.loadedLine count slot]

/-- A step that opens a store on a handle opens it so. -/
theorem opens_step {session : Session} (name : String) {storage : String} (place : Option String)
    {handle : Handle} (hstorage : session.storages.find? storage = some handle) :
    Opens session name handle (place.getD Store.defaultSlot)
      (session.step (.openStore name storage place))
      (Store.logOf (session.step (.openStore name storage place)).effects) := by
  have hstep : session.step (.openStore name storage place) =
      session.openStore name place handle := withStorage_of_find? hstorage _
  rw [hstep]
  generalize hslot : place.getD Store.defaultSlot = slot
  unfold openStore Store.openSlot
  rw [hslot]
  cases hread : handle.access.read slot session.world with
  | error failure => exact .unread hread
  | ok raw =>
    dsimp only
    cases hload : Store.load slot raw with
    | error error => exact .refused hread hload
    | ok document => exact .opened hread hload (Store.entryCount_of_load hload)

/-- The effects of a store, and the lines that it logs, are exactly these. When it is opened, its
slot is read once and nothing is written; if the text there is loaded, the log is told of as many
entries as the object in the text has different keys. Whatever happens in the session from then
on, whatever the storage has and whichever of its operations fail, each call that drops a
setting, or sets one to a value with a stored form, tells the log the number of UTF-8 bytes of
the settings as they are after it and directly after that writes their text, once; it succeeds
exactly when this write does, and fails with its failure otherwise. No other call does or logs
anything. -/
theorem effects_exact {session : Session} (name : String) {storage : String}
    (place : Option String) {handle : Handle}
    (hstorage : session.storages.find? storage = some handle) :
    let slot := place.getD Store.defaultSlot
    let opening := session.step (.openStore name storage place)
    Opens session name handle slot opening (Store.logOf opening.effects) ∧
    ∀ {raw : Option String} {document : Document}, session.world.read handle slot = .ok raw →
      Store.load slot raw = .ok document →
      ∀ {steps : List Step}, (∀ step ∈ steps, ∀ storage slot, step ≠ .openStore name storage slot) →
        let stores := revised ⟨slot, document⟩ (steps.filterMap (Step.revision? name))
        let effects := opening.effects ++ effectsOf name opening.session steps
        (∃ count, EntryCount raw count ∧
          effects = .reads slot :: .loaded count slot :: stores.flatMap Store.writing ∧
          Store.logOf effects = Store.loadedLine count slot :: stores.map Store.writingLine) ∧
        ∀ step : Step, step.calls name = true →
          ∃ store, (opening.session.after steps).stores.find? name = some ⟨handle, store⟩ ∧
            store.slot = slot ∧
            Conducts (opening.session.after steps) name handle store step := by
  intro slot opening
  have hopens : Opens session name handle slot opening (Store.logOf opening.effects) :=
    opens_step name place hstorage
  refine ⟨hopens, fun {raw document} hread hload {steps} hopen => ?_⟩
  intro stores effects
  have hfind : opening.session.stores.find? name = some ⟨handle, ⟨slot, document⟩⟩ :=
    find?_openStore_self name place hstorage hread hload
  refine ⟨?_, fun step hcalls => ?_⟩
  · have hrun : effects = opening.effects ++ stores.flatMap Store.writing :=
      congrArg (opening.effects ++ ·) (effectsOf_eq_writings hfind hopen)
    rw [hrun]
    generalize opening = outcome at hopens
    generalize Store.logOf outcome.effects = lines at hopens
    cases hopens with
    | unread hfail => cases hfail.symm.trans hread
    | refused hread' hrefused =>
      cases hread'.symm.trans hread
      cases hrefused.symm.trans hload
    | @opened _ _ count hread' hload' hcount =>
      cases hread'.symm.trans hread
      refine ⟨count, hcount, rfl, ?_⟩
      rw [← Store.logOf_writings]
      exact Store.logOf_loaded count slot _
  · have hlater := find?_stores_after hfind hopen
    exact ⟨_, hlater, rfl, conducts_of_calls hlater hcalls⟩

/-- A page whose default slot has an object that repeats a key. -/
def repeatingPage : Session :=
  start.after [.page "page" [(Text.unitsOf "operaton",
    Text.unitsOf "\x7b\"a\":1,\"b\":\"x\",\"a\":2\x7d")]]

/-- A store is asked, refuses a value, and is given a setting of characters that take two bytes;
from then on the page throws what it is to write. -/
def noisyRun : List Step :=
  [.get "store" "a" "null", .set "store" "a" (.refusing "no"), .set "store" "é" (.text "ü"),
    .fail "page" none (some (.thrown (.string (Text.unitsOf "full")))), .contains "store" "z"]

/-- Two entries are counted and 25 bytes, and the removal of an absent key attempts the second
write, which fails. -/
theorem effects_exact_noisyRun :
    let opening := repeatingPage.step (.openStore "store" "page" none)
    let effects := opening.effects ++
      effectsOf "store" opening.session (noisyRun ++ [.remove "store" "z"])
    let text := "\x7b\"a\":2,\"b\":\"x\",\"é\":\"ü\"\x7d"
    repeatingPage.storages.find? "page" = some (.page 0) ∧
      effects = [.reads "operaton", .loaded 2 "operaton", .persisting 25 "operaton",
        .writes "operaton" text, .persisting 25 "operaton", .writes "operaton" text] ∧
      Store.logOf effects = [(.debug, "Loaded 2 configuration entries from `operaton`"),
        (.trace, "Persisting 25 bytes to `operaton`"),
        (.trace, "Persisting 25 bytes to `operaton`")] ∧
      ∃ stored, ((opening.session.after noisyRun).step (.remove "store" "z")).answer =
        .changed (.error (.storage (.refused "full"))) text stored := by
  intro opening effects text
  have hstorage : repeatingPage.storages.find? "page" = some (.page 0) := rfl
  have hread : repeatingPage.world.read (.page 0) "operaton" =
      .ok (some "\x7b\"a\":1,\"b\":\"x\",\"a\":2\x7d") := rfl
  have hload : Store.load "operaton" (some "\x7b\"a\":1,\"b\":\"x\",\"a\":2\x7d") =
      .ok [("a", .number (.integer 2 (by decide))), ("b", .string "x")] := rfl
  have hopen : ∀ step ∈ noisyRun ++ [Step.remove "store" "z"], ∀ storage slot,
      step ≠ .openStore "store" storage slot := by simp [noisyRun]
  have hopened : opening.effects = [.reads "operaton", .loaded 2 "operaton"] := by decide +kernel
  obtain ⟨-, hrun⟩ := effects_exact "store" none hstorage
  obtain ⟨⟨count, -, htrace, hlog⟩, -⟩ := hrun hread hload hopen
  obtain ⟨-, hcalls⟩ := hrun hread hload (List.forall_mem_append.mp hopen).1
  -- The count of the trace is that of the opening, which is evaluated.
  have hcount : count = 2 := by
    have hhead : (opening.effects ++ effectsOf "store" opening.session
        (noisyRun ++ [.remove "store" "z"])).take 2 =
          [.reads "operaton", .loaded count "operaton"] := congrArg (List.take 2) htrace
    rw [hopened] at hhead
    injection hhead with _ hrest
    injection hrest with hloaded
    injection hloaded with hcount
    exact hcount.symm
  subst hcount
  refine ⟨hstorage, htrace.trans (by decide +kernel), hlog.trans (by decide +kernel), ?_⟩
  obtain ⟨store, hfind, -, hconducts⟩ := hcalls (.remove "store" "z") rfl
  have hstore : (opening.session.after noisyRun).stores.find? "store" =
      some ⟨.page 0, ⟨"operaton", [("a", .number (.integer 2 (by decide))), ("b", .string "x"),
        ("é", .string "ü")]⟩⟩ := rfl
  cases hfind.symm.trans hstore
  cases hconducts with
  | revises hr hattempts =>
    cases hr
    obtain ⟨-, hanswer⟩ := hattempts.refused (.refused "full") rfl
    exact hanswer
  | quiet hr _ => cases hr

end Session

end Settings
