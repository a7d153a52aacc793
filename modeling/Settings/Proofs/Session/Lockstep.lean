import Settings.Proofs.Script.Shown
import Settings.Proofs.Session.Memory
import Settings.Proofs.Store.Thrown

/-!
# A store for scripts beside a store

A store for scripts is a store whose values and failures are converted on the way. Beside
a session in which scripts hold stores there is one in which a host program holds the
same stores: it sets the stored value where the script sets its own, drops the setting
where the script's value has no text, and does nothing where the script's value is
refused. After every step both have the same settings in memory, the same storages and
the same log lines; a call fails for both or for neither, and what the script is thrown
tells the failure. Only the refusal of a value has no counterpart, and it changes nothing.
-/

namespace Settings.Session

open Storage (Handle World Items)
open Store (Tells)

/-! ### The session beside -/

/-- The session in which a host program holds what scripts hold. -/
def hosted (session : Session) : Session :=
  { session with stores := session.scripted, scripted := [] }

/-- A step that uses storages or stores for scripts and no other store. -/
def Step.byScript : Step → Bool
  | .memory .. | .page .. | .share .. | .fail .. | .window .. | .takeWindow .. => true
  | .readItem .. | .writeItem .. => true
  | .openScripted .. | .getScripted .. | .setScripted .. | .removeScripted .. => true
  | .slotScripted .. => true
  | _ => false

/-- What a host program does beside a step; nothing where a value is refused. -/
def Step.beside? : Step → Option Step
  | .openScripted name storage place => some (.openStore name storage place)
  | .setScripted name key value =>
    match Store.fromScript value with
    | .ok (some stored) => some (.set name key (.stored stored))
    | .ok none => some (.remove name key)
    | .error _ => none
  | .removeScripted name key => some (.remove name key)
  | .getScripted name key _ => some (.contains name key)
  | .slotScripted name => some (.slot name)
  | step => some step

/-- What a script is told, and what a host program is told beside it. -/
inductive ToldBeside : Answer → Answer → Prop where
  /-- A name stands for nothing. -/
  | unbound : ToldBeside .unbound .unbound
  /-- Something was done with a storage. -/
  | done : ToldBeside .done .done
  /-- A storage fails. -/
  | refused (error : Storage.Error) : ToldBeside (.refused error) (.refused error)
  /-- An item or a slot. -/
  | text (text : Option String) : ToldBeside (.text text) (.text text)
  /-- A store is opened. -/
  | opened (slot text : String) (stored : Option String) :
    ToldBeside .done (.opened slot text stored)
  /-- A store is not opened, and the script is thrown why. -/
  | notOpened {thrown : Script.Value} {error : Store.Error} (h : Tells thrown error) :
    ToldBeside (.thrown thrown) (.failed error)
  /-- A setting is read, or the default where there is none. -/
  | read (value : Script.Value) (same there : Bool) : ToldBeside (.value value same) (.flag there)
  /-- A change succeeds. -/
  | changed (text : String) (stored : Option String) :
    ToldBeside (.changedByScript (.ok ()) stored) (.changed (.ok ()) text stored)
  /-- A change fails, and the script is thrown why. -/
  | notChanged {thrown : Script.Value} {error : Store.Error} (h : Tells thrown error)
    (text : String) (stored : Option String) :
    ToldBeside (.changedByScript (.error thrown) stored) (.changed (.error error) text stored)

/-- An outcome for a script and the one beside it for a host program. -/
structure Beside (script host : Outcome) : Prop where
  /-- The host program holds what scripts hold, over the same storages. -/
  session_eq : host.session = script.session.hosted
  /-- The same was read, written and logged. -/
  effects_eq : host.effects = script.effects
  /-- Both are told alike. -/
  told : ToldBeside script.answer host.answer

/-- A value of a script is refused: what its conversion throws is thrown, unless there is
no store of that name, and the session is as before. -/
structure RefusesValue (session : Session) (step : Step) : Prop where
  /-- A value is set whose conversion throws, and this alone is what can be told. -/
  told : ∃ name key value thrown, step = .setScripted name key value ∧
    Store.fromScript value = .error thrown ∧
    ((session.step step).answer = .unbound ∨
      ∃ stored, (session.step step).answer = .changedByScript (.error thrown) stored)
  /-- Nothing is changed. -/
  session_eq : (session.step step).session = session
  /-- Nothing is written or logged. -/
  effects_eq : (session.step step).effects = []

/-! ### Single uses -/

variable (session : Session)

/-- Something is done with a storage on both sides, or with none. -/
theorem beside_withStorage (name : String) {use use' : Handle → Outcome}
    (h : ∀ handle, Beside (use handle) (use' handle)) :
    Beside (session.withStorage name use) (session.hosted.withStorage name use') := by
  have hfind : session.hosted.storages.find? name = session.storages.find? name := rfl
  unfold withStorage
  rw [hfind]
  cases session.storages.find? name with
  | none => exact ⟨rfl, rfl, .unbound⟩
  | some handle => exact h handle

/-- Something is done with a store for scripts and with the store beside it, or with
none. -/
theorem beside_withScripted (name : String) {use use' : Bound → Outcome}
    (h : ∀ bound, Beside (use bound) (use' bound)) :
    Beside (session.withScripted name use) (session.hosted.withStore name use') := by
  have hfind : session.hosted.stores.find? name = session.scripted.find? name := rfl
  unfold withScripted withStore
  rw [hfind]
  cases session.scripted.find? name with
  | none => exact ⟨rfl, rfl, .unbound⟩
  | some bound => exact h bound

/-- An item is read on both sides. -/
theorem beside_readItem (key : String) (handle : Handle) :
    Beside (session.readItem key handle) (session.hosted.readItem key handle) := by
  have hworld : session.hosted.world = session.world := rfl
  unfold readItem
  rw [hworld]
  cases session.world.read handle key with
  | error error => exact ⟨rfl, rfl, .refused error⟩
  | ok text => exact ⟨rfl, rfl, .text text⟩

/-- An item is written on both sides. -/
theorem beside_writeItem (key value : String) (handle : Handle) :
    Beside (session.writeItem key value handle) (session.hosted.writeItem key value handle) := by
  have hworld : session.hosted.world = session.world := rfl
  unfold writeItem
  rw [hworld]
  cases session.world.write handle key value with
  | error error => exact ⟨rfl, rfl, .refused error⟩
  | ok world => exact ⟨rfl, rfl, .done⟩

/-- The window is changed on both sides. -/
theorem beside_setWindow (state : WindowState) :
    Beside (session.setWindow state) (session.hosted.setWindow state) := by
  cases state with
  | missing | bare | throwing => exact ⟨rfl, rfl, .done⟩
  | offering name => exact beside_withStorage session name fun _ => ⟨rfl, rfl, .done⟩

/-- The storage of the window is taken on both sides. -/
theorem beside_takeWindow (name : String) :
    Beside (session.step (.takeWindow name)) (session.hosted.step (.takeWindow name)) := by
  have hwindow : session.hosted.window = session.window := rfl
  unfold step
  dsimp only
  rw [hwindow]
  cases session.window.handle with
  | error error => exact ⟨rfl, rfl, .refused error⟩
  | ok handle => exact ⟨rfl, rfl, .done⟩

/-- A store is opened on both sides, or on neither. -/
theorem beside_openScripted (name : String) (slot : Option String) (handle : Handle) :
    Beside (session.openScripted name slot handle)
      (session.hosted.openStore name slot handle) := by
  have hworld : session.hosted.world = session.world := rfl
  unfold openScripted openStore Store.openForScript
  rw [hworld]
  cases hopen : Store.openSlot handle.access (slot.getD Store.defaultSlot) session.world with
  | mk result effects =>
    cases result with
    | ok store => exact ⟨rfl, rfl, .opened _ _ _⟩
    | error error =>
      have hfailed : (Store.openSlot handle.access (slot.getD Store.defaultSlot)
          session.world).1 = .error error := by
        rw [hopen]
      exact ⟨rfl, rfl, .notOpened (Store.tells_of_openSlot hfailed)⟩

/-- A setting is read where the host program asks whether it is there. Reading throws
nothing. -/
theorem beside_getScripted (key : String) (default : Script.Value) (bound : Bound) :
    Beside (session.getScripted key default bound)
      (session.hosted.tell (.flag (bound.store.contains key))) := by
  unfold getScripted Store.getForScript
  cases bound.store.find? key with
  | none => exact ⟨rfl, rfl, .read _ _ _⟩
  | some value =>
    dsimp only
    rw [Script.toScript_eq]
    exact ⟨rfl, rfl, .read _ _ _⟩

/-- A written store is kept on both sides. -/
theorem beside_keep (name : String) (handle : Handle) (store : Store) :
    Beside
      (session.keepScripted name handle (store.persist handle.access session.world).forScript)
      (session.hosted.keep name handle (store.persist handle.access session.world)) := by
  refine ⟨rfl, rfl, ?_⟩
  show ToldBeside
    (.changedByScript ((store.persist handle.access session.world).result.mapError _) _)
    (.changed (store.persist handle.access session.world).result _ _)
  cases hresult : (store.persist handle.access session.world).result with
  | ok done => exact .changed _ _
  | error error => exact .notChanged (Store.tells_of_persist hresult) _ _

section Set

variable {session : Session} {name : String} {bound : Bound}

/-- A set of a script that has a store is a change of that store. -/
theorem step_setScripted (hfind : session.scripted.find? name = some bound) (key : String)
    (value : Script.Value) :
    session.step (.setScripted name key value) =
      session.keepScripted name bound.handle
        (bound.store.setForScript bound.handle.access key value session.world) :=
  withHeld_of_find? .script hfind _

/-- A value whose conversion throws is thrown back and nothing else happens. -/
theorem step_setScripted_refused (hfind : session.scripted.find? name = some bound) (key : String)
    {value thrown : Script.Value} (h : Store.fromScript value = .error thrown) :
    session.step (.setScripted name key value) =
      ⟨session, .changedByScript (.error thrown) (storedText session.world bound), []⟩ := by
  have hset : bound.store.setForScript bound.handle.access key value session.world =
      ⟨.error thrown, bound.store, session.world, []⟩ := by
    rw [Store.setForScript, h]
  have hsame : session.nameStore .script name bound = session :=
    nameStore_of_find? .script hfind
  rw [step_setScripted hfind, hset]
  exact congrArg (Outcome.mk · _ _) hsame

end Set

/-- A value whose conversion throws is refused, if there is a store of that name. -/
theorem refusesValue {name key : String} {value thrown : Script.Value}
    (h : Store.fromScript value = .error thrown) :
    RefusesValue session (.setScripted name key value) := by
  cases hfind : session.scripted.find? name with
  | none =>
    have hstep : session.step (.setScripted name key value) = session.tell .unbound := by
      show session.withScripted name _ = _
      rw [withScripted, hfind]
    rw [tell] at hstep
    exact ⟨⟨name, key, value, thrown, rfl, h, .inl (by rw [hstep])⟩, by rw [hstep], by rw [hstep]⟩
  | some bound =>
    have hstep := step_setScripted_refused hfind key h
    exact ⟨⟨name, key, value, thrown, rfl, h, .inr ⟨_, by rw [hstep]⟩⟩, by rw [hstep],
      by rw [hstep]⟩

/-! ### Steps and runs -/

/-- A step keeps script and host program together: both meet the same, or the value of
the script is refused and the host program does nothing. -/
structure KeepsStep (session : Session) (step : Step) : Prop where
  /-- What the host program does meets the same. -/
  beside : ∀ hostStep, step.beside? = some hostStep →
    Beside (session.step step) (session.hosted.step hostStep)
  /-- Where it does nothing, a value is refused. -/
  refuses : step.beside? = none → RefusesValue session step

/-- A step is kept when what the host program does meets the same. -/
theorem keepsStep_of_beside {step hostStep : Step} (hstep : step.beside? = some hostStep)
    (h : Beside (session.step step) (session.hosted.step hostStep)) : KeepsStep session step where
  beside other hother := by
    rw [hstep] at hother
    cases hother
    exact h
  refuses hnone := by
    rw [hstep] at hnone
    cases hnone

/-- Setting a value keeps script and host program together: the host program sets the
stored value, drops the setting or does nothing. -/
theorem keepsStep_setScripted (name key : String) (value : Script.Value) :
    KeepsStep session (.setScripted name key value) := by
  cases hvalue : Store.fromScript value with
  | error thrown =>
    have hnone : (Step.setScripted name key value).beside? = none := by
      rw [Step.beside?, hvalue]
    refine ⟨fun _ hsome => ?_, fun _ => refusesValue session hvalue⟩
    rw [hnone] at hsome
    cases hsome
  | ok stored? =>
    cases stored? with
    | none =>
      have hbeside : (Step.setScripted name key value).beside? = some (.remove name key) := by
        rw [Step.beside?, hvalue]
      refine keepsStep_of_beside session hbeside ?_
      refine beside_withScripted session name fun bound => ?_
      rw [Store.setForScript, hvalue]
      exact beside_keep session name bound.handle _
    | some stored =>
      have hbeside : (Step.setScripted name key value).beside? =
          some (.set name key (.stored stored)) := by
        rw [Step.beside?, hvalue]
      refine keepsStep_of_beside session hbeside ?_
      refine beside_withScripted session name fun bound => ?_
      rw [Store.setForScript, hvalue, Store.set, Datum.toValue]
      exact beside_keep session name bound.handle _

/-- Every step of a script keeps both together. -/
theorem keepsStep {step : Step} (h : step.byScript = true) : KeepsStep session step := by
  have hkept {hostStep : Step} (hstep : step.beside? = some hostStep) :=
    keepsStep_of_beside session hstep
  cases step with
  | memory | page => exact hkept rfl ⟨rfl, rfl, .done⟩
  | share | fail => exact hkept rfl (beside_withStorage session _ fun _ => ⟨rfl, rfl, .done⟩)
  | readItem name key =>
    exact hkept rfl (beside_withStorage session name (beside_readItem session key))
  | writeItem name key value =>
    exact hkept rfl (beside_withStorage session name (beside_writeItem session key value))
  | window state => exact hkept rfl (beside_setWindow session state)
  | takeWindow name => exact hkept rfl (beside_takeWindow session name)
  | openScripted name storage slot =>
    exact hkept rfl (beside_withStorage session storage (beside_openScripted session name slot))
  | getScripted name key default =>
    exact hkept rfl (beside_withScripted session name (beside_getScripted session key default))
  | slotScripted name =>
    exact hkept rfl (beside_withScripted session name fun _ => ⟨rfl, rfl, .text _⟩)
  | removeScripted name key =>
    exact hkept rfl
      (beside_withScripted session name fun bound => beside_keep session name bound.handle _)
  | setScripted name key value => exact keepsStep_setScripted session name key value
  | openStore | get | getAs | contains | put | set | remove | slot | text | size => cases h
  | readBeside | writeBeside => cases h

/-- After the steps of a script the host program holds what scripts hold. -/
theorem hosted_after {steps : List Step} (h : ∀ step ∈ steps, step.byScript = true) :
    session.hosted.after (steps.filterMap Step.beside?) = (session.after steps).hosted := by
  induction steps generalizing session with
  | nil => rfl
  | cons first rest ih =>
    obtain ⟨hfirst, hrest⟩ := List.forall_mem_cons.mp h
    have hkeeps := keepsStep session hfirst
    rw [List.filterMap_cons]
    cases hbeside : first.beside? with
    | none =>
      have hsame := (hkeeps.refuses hbeside).session_eq
      show session.hosted.after (rest.filterMap Step.beside?) =
        ((session.step first).session.after rest).hosted
      rw [hsame, ih session hrest]
    | some hostStep =>
      show (session.hosted.step hostStep).session.after (rest.filterMap Step.beside?) =
        ((session.step first).session.after rest).hosted
      rw [(hkeeps.beside hostStep hbeside).session_eq, ih _ hrest]

/-- After any steps of a script, the host program beside it has the same storages, and its
stores hold what those for scripts hold. The next step keeps it so: what the host program
does beside it has the same effects and is told alike, a failure of the one being told by
what the other is thrown; or the conversion of a value throws, and nothing is done. -/
theorem script_beside_host {past : List Step} {step : Step}
    (hscript : ∀ s ∈ past ++ [step], s.byScript = true) :
    let script := session.after past
    let host := session.hosted.after (past.filterMap Step.beside?)
    host.world = script.world ∧ host.stores = script.scripted ∧
      (∀ hostStep, step.beside? = some hostStep →
        Beside (script.step step) (host.step hostStep)) ∧
      (step.beside? = none → RefusesValue script step) := by
  intro script host
  obtain ⟨hpast, hstep⟩ := List.forall_mem_append.mp hscript
  have hhost : host = script.hosted := hosted_after session hpast
  have hkeeps := keepsStep script (hstep step (List.mem_singleton_self step))
  rw [hhost]
  exact ⟨rfl, rfl, hkeeps.beside, hkeeps.refuses⟩

/-- A store for scripts over a page that is opened and then throws on writing. -/
def fullPage : List Step :=
  [.page "window" [], .openScripted "script" "window" none,
    .fail "window" none (some (.thrown (.string (Text.unitsOf "full"))))]

/-- The setting is in memory on both sides, and the one failure of the storage is told
once. -/
theorem script_beside_host_fullPage :
    let step := Step.setScripted "script" "theme" (.bool true)
    let hostStep := Step.set "script" "theme" (.stored (.bool true))
    (∀ s ∈ fullPage ++ [step], s.byScript = true) ∧
      Beside ((start.after fullPage).step step)
        ((start.hosted.after (fullPage.filterMap Step.beside?)).step hostStep) ∧
      ((start.after fullPage).step step).answer = .changedByScript
        (.error (.error "Error" (Text.unitsOf "storage operation failed: full"))) none := by
  intro step hostStep
  have hscript : ∀ s ∈ fullPage ++ [step], s.byScript = true := by
    simp [fullPage, step, Step.byScript]
  obtain ⟨-, -, hbeside, -⟩ := script_beside_host start hscript
  exact ⟨hscript, hbeside hostStep rfl, rfl⟩

end Settings.Session
