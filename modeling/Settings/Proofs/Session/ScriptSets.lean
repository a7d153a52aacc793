import Settings.Proofs.Session.Canonical
import Settings.Proofs.Session.Lockstep
import Settings.Proofs.Store.Changes
import Settings.Proofs.Store.Converted

/-!
# What a set of a script does

A script that sets a value meets one of three outcomes, and which one is decided by the value
alone. A value that cannot be written, or whose text the reader refuses, is thrown back and
nothing at all has happened. Every other value revises its key in memory, or drops it when the
value has no text, and one write is attempted; the write may fail, and then the failure is
thrown, but the log has told of it.
-/

namespace Settings.Session

open Storage (World Items)
open Store (RefusesToStore StoresAs)

/-- Something is thrown, and the settings in memory, the text in the slot and the log are as
before. -/
structure Outcome.ThrowsUnchanged (outcome : Outcome) (session : Session) (name : String)
    (bound : Bound) : Prop where
  /-- Something is thrown. -/
  throws : ∃ thrown stored, outcome.answer = .changedByScript (.error thrown) stored
  /-- The store under the name holds what it held. -/
  memory_eq : outcome.session.scripted.find? name = some bound
  /-- The slot has the text that it had. -/
  stored_eq : storedText outcome.session.world bound = storedText session.world bound
  /-- Nothing is told to the log. -/
  log_eq : Store.logOf outcome.effects = []

/-- One key of a store for scripts was revised and one write was attempted; the session keeps
what the change left behind. -/
def Outcome.Revises (outcome : Outcome) (session : Session) (name : String) (bound : Bound)
    (key : String) (value? : Option Json.Value) : Prop :=
  ∃ change : Store.Change Script.Value World,
    change.Revised bound.handle.access (fun failure => Store.thrownError failure.message)
      bound.store key value? session.world ∧
    outcome = session.keepScripted name bound.handle change

section Step

variable {session : Session} {name : String} {bound : Bound}

/-- A value without a text drops the setting. -/
theorem revises_of_textless (hfind : session.scripted.find? name = some bound)
    (ho : bound.store.Ordered) (key : String) {value : Script.Value}
    (h : Script.stringify value = .ok none) :
    (session.step (.setScripted name key value)).Revises session name bound key none := by
  have hascending := (Json.ordered_object_iff.mp ho).1
  have hset : bound.store.setForScript bound.handle.access key value session.world =
      (bound.store.remove bound.handle.access key session.world).forScript := by
    rw [Store.setForScript, Store.fromScript_of_textless h]
  refine ⟨_, (Store.revised_remove hascending).forScript, ?_⟩
  rw [step_setScripted hfind, hset]

/-- A value that is stored stands under its key. -/
theorem revises_of_stores (hfind : session.scripted.find? name = some bound) (key : String)
    {value : Script.Value} {stored : Json.Value} (h : StoresAs value stored) :
    (session.step (.setScripted name key value)).Revises session name bound key
      (some stored) := by
  have hset : bound.store.setForScript bound.handle.access key value session.world =
      (bound.store.put bound.handle.access key stored session.world).forScript := by
    rw [Store.setForScript, Store.fromScript_of_stores h]
  refine ⟨_, (Store.revised_put stored).forScript, ?_⟩
  rw [step_setScripted hfind, hset]

/-- What revises a key is told to the log. -/
theorem Outcome.Revises.not_throwsUnchanged {outcome : Outcome} {key : String}
    {value? : Option Json.Value} (h : outcome.Revises session name bound key value?) :
    ¬outcome.ThrowsUnchanged session name bound := by
  intro hunchanged
  obtain ⟨change, hrevised, rfl⟩ := h
  have hlog : Store.logOf change.effects = [] := hunchanged.log_eq
  rw [hrevised.attempted.effects_eq] at hlog
  simp only [Store.logOf, List.filterMap_cons, Store.Effect.line?, List.filterMap_nil,
    reduceCtorEq] at hlog

end Step

/-- In every session that steps can lead to, a set of a script on a store that it has meets
one of three outcomes. It throws and leaves memory, slot and log as they were exactly when the
value is refused, and then what is thrown is known and the session is the same in all its
parts. If the value has no text, its key is absent afterwards; otherwise the key has what the
text denotes. In these two cases every other key is as before and exactly one write is
attempted. -/
theorem setScripted_outcomes {steps : List Step} {name : String} {bound : Bound}
    (hfind : (start.after steps).scripted.find? name = some bound) (key : String)
    (value : Script.Value) :
    let session := start.after steps
    let outcome := session.step (.setScripted name key value)
    (outcome.ThrowsUnchanged session name bound ↔ ∃ thrown, RefusesToStore value thrown) ∧
    (∀ thrown, RefusesToStore value thrown →
      outcome = ⟨session, .changedByScript (.error thrown) (storedText session.world bound), []⟩) ∧
    (Script.stringify value = .ok none → outcome.Revises session name bound key none) ∧
    (∀ stored, StoresAs value stored → outcome.Revises session name bound key (some stored)) ∧
    ((∃ thrown, RefusesToStore value thrown) ∨ Script.stringify value = .ok none ∨
      ∃ stored, StoresAs value stored) := by
  intro session outcome
  have ho : bound.store.Ordered := orderly_reached .script nofun name bound hfind
  have hcases := Store.stored_cases value
  have hrefused : ∀ thrown, RefusesToStore value thrown → outcome =
      ⟨session, .changedByScript (.error thrown) (storedText session.world bound), []⟩ :=
    fun thrown h => step_setScripted_refused hfind key (Store.fromScript_of_refuses h)
  have hdropped : Script.stringify value = .ok none →
      outcome.Revises session name bound key none := revises_of_textless hfind ho key
  have hstored : ∀ stored, StoresAs value stored →
      outcome.Revises session name bound key (some stored) :=
    fun stored h => revises_of_stores hfind key h
  refine ⟨⟨?_, ?_⟩, hrefused, hdropped, hstored, hcases⟩
  · intro hunchanged
    rcases hcases with hrefuses | hnone | ⟨stored, hstores⟩
    · exact hrefuses
    · exact absurd hunchanged (hdropped hnone).not_throwsUnchanged
    · exact absurd hunchanged (hstored stored hstores).not_throwsUnchanged
  · rintro ⟨thrown, hrefuses⟩
    rw [hrefused thrown hrefuses]
    exact ⟨⟨thrown, _, rfl⟩, hfind, rfl, rfl⟩

/-- A page on which a script has a store with one setting. -/
def markedSteps : List Step :=
  [.page "page" [], .openScripted "script" "page" none, .setScripted "script" "mark" (.bool true)]

/-- An integer of any size throws from within an array, nothing drops the setting, and an array
of nothing is stored as an array of null. -/
theorem setScripted_outcomes_marked :
    ∃ bound, (start.after markedSteps).scripted.find? "script" = some bound ∧
      (start.after markedSteps).step (.setScripted "script" "mark" (.array [.null, .bigint 1])) =
        ⟨start.after markedSteps, .changedByScript (.error Script.bigintError)
          (storedText (start.after markedSteps).world bound), []⟩ ∧
      ((start.after markedSteps).step (.setScripted "script" "mark" .undefined)).Revises
        (start.after markedSteps) "script" bound "mark" none ∧
      ((start.after markedSteps).step (.setScripted "script" "mark" (.array [.undefined]))).Revises
        (start.after markedSteps) "script" bound "mark" (some (.array [.null])) := by
  have hfind : (start.after markedSteps).scripted.find? "script" =
      some ⟨.page 0, ⟨"operaton", [("mark", .bool true)]⟩⟩ := rfl
  have hrefuses : RefusesToStore (.array [.null, .bigint 1]) Script.bigintError := .thrown rfl
  have hspells : Json.Spells ['[', 'n', 'u', 'l', 'l', ']'] (.array [.null]) :=
    .array (Json.inside_joined (.cons .null .nil))
  have hstores : StoresAs (.array [.undefined]) (.array [.null]) :=
    .mk rfl hspells (by decide) (.array (.cons .null .nil))
  obtain ⟨-, hrefused, -⟩ := setScripted_outcomes hfind "mark" (.array [.null, .bigint 1])
  obtain ⟨-, -, hdropped, -⟩ := setScripted_outcomes hfind "mark" .undefined
  obtain ⟨-, -, -, hstored, -⟩ := setScripted_outcomes hfind "mark" (.array [.undefined])
  exact ⟨_, hfind, hrefused _ hrefuses, hdropped rfl, hstored _ hstores⟩

end Settings.Session
