import Settings.Proofs.Datum.Obstructed
import Settings.Store.Scripted

/-!
# What a change leaves behind

A change of a store either is refused before anything happens or revises one key in memory
and then attempts one write, of the text of all settings as they are after it. The write
decides whether the change succeeds, not what is held. A typed value is refused exactly when
some part of it stands in the way of its stored form.
-/

namespace Settings.Store

open Json (Value Members)
open Storage (Access)

variable {ε σ : Type} {access : Access σ} {store : Store} {key : String} {world : σ}

/-- One write was attempted, of what the store holds after the change. It succeeded and gave
the world after the change, or its failure was reported and the world is the old one. -/
structure Change.Attempted (access : Access σ) (report : Storage.Error → ε) (world : σ)
    (change : Change ε σ) : Prop where
  /-- The log is told of one write and one write is asked for. -/
  effects_eq : change.effects =
    [.persisting change.store.text.utf8ByteSize change.store.slot,
      .writes change.store.slot change.store.text]
  /-- The write decides the result and the world. -/
  settled :
    (access.write change.store.slot change.store.text world = .ok change.world ∧
      change.result = .ok ()) ∨
    ∃ failure, access.write change.store.slot change.store.text world = .error failure ∧
      change.result = .error (report failure) ∧ change.world = world

/-- What stands under one key was revised, and the settings were written. -/
structure Change.Revised (access : Access σ) (report : Storage.Error → ε) (store : Store)
    (key : String) (value? : Option Value) (world : σ) (change : Change ε σ) : Prop where
  /-- The store stays in its slot. -/
  slot_eq : change.store.slot = store.slot
  /-- The key has its new value, or none. -/
  find?_self : change.store.find? key = value?
  /-- Every other key is as before. -/
  find?_other : ∀ other, other ≠ key → change.store.find? other = store.find? other
  /-- The settings were written. -/
  attempted : change.Attempted access report world

/-- A store that is written attempts one write. -/
theorem attempted_persist (store : Store) :
    (store.persist access world).Attempted access .storage world := by
  unfold persist
  cases hwrite : access.write store.slot store.text world with
  | ok next => exact ⟨rfl, .inl ⟨hwrite, rfl⟩⟩
  | error failure => exact ⟨rfl, .inr ⟨failure, hwrite, rfl, rfl⟩⟩

/-- Putting a value revises its key. -/
theorem revised_put (value : Value) :
    (store.put access key value world).Revised access .storage store key (some value) world where
  slot_eq := rfl
  find?_self := Members.find?_insert_self key value store.document
  find?_other _ hother := Members.find?_insert_other hother value store.document
  attempted := attempted_persist _

/-- Dropping a key revises it. -/
theorem revised_remove (h : Members.Ascending store.document) :
    (store.remove access key world).Revised access .storage store key none world where
  slot_eq := rfl
  find?_self := Members.find?_erase_self key h
  find?_other _ hother := Members.find?_erase_other hother store.document
  attempted := attempted_persist _

/-- What a change attempts, it attempts for a script too, which is thrown the failure. -/
theorem Change.Attempted.forScript {change : Change Error σ}
    (h : change.Attempted access .storage world) :
    change.forScript.Attempted access (fun failure => thrownError failure.message) world := by
  refine ⟨h.effects_eq, ?_⟩
  rcases h.settled with ⟨hwrite, hresult⟩ | ⟨failure, hwrite, hresult, hworld⟩
  · have hdone : change.forScript.result = .ok () := by
      simp only [Change.forScript, hresult, Except.mapError]
    exact .inl ⟨hwrite, hdone⟩
  · have hline : (Error.storage failure).line = failure.message := rfl
    have hthrown : change.forScript.result = .error (thrownError failure.message) := by
      simp only [Change.forScript, hresult, Except.mapError, hline]
    exact .inr ⟨failure, hwrite, hthrown, hworld⟩

/-- What a change revises, it revises for a script too. -/
theorem Change.Revised.forScript {change : Change Error σ} {value? : Option Value}
    (h : change.Revised access .storage store key value? world) :
    change.forScript.Revised access (fun failure => thrownError failure.message) store key value?
      world :=
  ⟨h.slot_eq, h.find?_self, h.find?_other, h.attempted.forScript⟩

/-- An attempted write fails, if it does, for the storage alone. -/
theorem Change.Attempted.error {report : Storage.Error → ε} {change : Change ε σ}
    (h : change.Attempted access report world) {error : ε} (herror : change.result = .error error) :
    ∃ failure, access.write change.store.slot change.store.text world = .error failure ∧
      error = report failure := by
  rcases h.settled with ⟨-, hresult⟩ | ⟨failure, hwrite, hresult, -⟩
  · simp only [hresult, reduceCtorEq] at herror
  · have hreport : error = report failure := by simpa only [hresult, Except.error.injEq, eq_comm]
      using herror
    exact ⟨failure, hwrite, hreport⟩

/-! ### Setting a typed value -/

/-- A typed value without a stored form is refused and nothing else happens. -/
theorem set_refused {datum : Datum} {reason : Datum.Refusal}
    (h : datum.toValue = .error reason) :
    store.set access key datum world = ⟨.error (.unstorable key reason), store, world, []⟩ := by
  simp only [set, h]

/-- A typed value with a stored form revises its key. -/
theorem revised_set {datum : Datum} {value : Value} (h : datum.toValue = .ok value) :
    (store.set access key datum world).Revised access .storage store key (some value) world := by
  have hset : store.set access key datum world = store.put access key value world := by
    simp only [set, h]
  rw [hset]
  exact revised_put value

/-! ### What decides a change -/

/-- What decides a change: it is refused and nothing happens, or one write is attempted. -/
inductive Change.Decided (access : Access σ) (report : Storage.Error → ε) (store : Store)
    (world : σ) : Change ε σ → Prop where
  /-- Nothing happens. -/
  | refused (error : ε) : Decided access report store world ⟨.error error, store, world, []⟩
  /-- One write is attempted. -/
  | attempted {change : Change ε σ} (h : change.Attempted access report world) :
    Decided access report store world change

/-- Setting a typed value is decided so. -/
theorem decided_set (access : Access σ) (store : Store) (key : String) (datum : Datum)
    (world : σ) : (store.set access key datum world).Decided access .storage store world := by
  cases hvalue : datum.toValue with
  | error reason =>
    rw [set_refused hvalue]
    exact .refused _
  | ok value => exact .attempted (revised_set hvalue).attempted

/-- Dropping a setting is decided so. -/
theorem decided_remove (access : Access σ) (store : Store) (key : String) (world : σ) :
    (store.remove access key world).Decided access .storage store world :=
  .attempted (attempted_persist _)

/-- Setting a script value is decided so. -/
theorem decided_setForScript (access : Access σ) (store : Store) (key : String)
    (value : Script.Value) (world : σ) :
    (store.setForScript access key value world).Decided access
      (fun failure => thrownError failure.message) store world := by
  unfold setForScript
  split
  · exact .attempted (attempted_persist _).forScript
  · exact .attempted (attempted_persist _).forScript
  · exact .refused _

/-- Dropping a setting by a script is decided so. -/
theorem decided_removeForScript (access : Access σ) (store : Store) (key : String) (world : σ) :
    (store.removeForScript access key world).Decided access
      (fun failure => thrownError failure.message) store world :=
  .attempted (attempted_persist _).forScript

/-- A change succeeded and wrote what the store holds after it, or it failed and the world is
the old one. -/
theorem Change.Decided.settled {report : Storage.Error → ε} {change : Change ε σ}
    (h : change.Decided access report store world) :
    (change.result = .ok () ∧
      access.write change.store.slot change.store.text world = .ok change.world) ∨
    ((∃ error, change.result = .error error) ∧ change.world = world) := by
  cases h with
  | refused error => exact .inr ⟨⟨error, rfl⟩, rfl⟩
  | attempted h =>
    rcases h.settled with ⟨hwrite, hresult⟩ | ⟨failure, -, hresult, hworld⟩
    · exact .inl ⟨hresult, hwrite⟩
    · exact .inr ⟨⟨report failure, hresult⟩, hworld⟩

/-- What a change writes, if anything, is the text of what the store holds after it. -/
theorem Change.Decided.text_eq {report : Storage.Error → ε} {change : Change ε σ}
    (h : change.Decided access report store world) {slot text : String}
    (hwrites : .writes slot text ∈ change.effects) : text = change.store.text := by
  cases h with
  | refused error => cases hwrites
  | attempted h =>
    rw [h.effects_eq] at hwrites
    simp only [List.mem_cons, reduceCtorEq, Effect.writes.injEq, List.not_mem_nil, or_false,
      false_or] at hwrites
    exact hwrites.2

/-! ### Typed values that are refused -/

/-- A typed value is refused as one without a stored form, under the key that was asked for,
exactly when some part of it stands in the way. Then the reason is that of such a part, and
memory, storage and log are as before. Any other typed value has a stored form, which stands
under the key afterwards, whatever the write does; every other key is as before, and what
fails, if anything, is the write. -/
theorem set_unstorable_iff (access : Access σ) (store : Store) (key : String) (datum : Datum)
    (world : σ) :
    let change := store.set access key datum world
    ((∃ reason, change.result = .error (.unstorable key reason)) ↔
      ∃ reason, datum.Obstructed reason) ∧
    (∀ name reason, change.result = .error (.unstorable name reason) →
      name = key ∧ datum.Obstructed reason ∧
        change.store = store ∧ change.world = world ∧ change.effects = []) ∧
    ((∀ reason, ¬datum.Obstructed reason) →
      ∃ value, datum.toValue = .ok value ∧
        change.Revised access .storage store key (some value) world ∧
        ∀ error, change.result = .error error → ∃ failure,
          access.write store.slot change.store.text world = .error failure ∧
            error = .storage failure) := by
  intro change
  cases hvalue : datum.toValue with
  | error reason =>
    have hchange : change = ⟨.error (.unstorable key reason), store, world, []⟩ :=
      set_refused hvalue
    have hobstructed : datum.Obstructed reason := Datum.obstructed_of_toValue hvalue
    rw [hchange]
    refine ⟨⟨fun _ => ⟨reason, hobstructed⟩, fun _ => ⟨reason, rfl⟩⟩, ?_, ?_⟩
    · intro name other hresult
      simp only [Except.error.injEq, Error.unstorable.injEq] at hresult
      obtain ⟨rfl, rfl⟩ := hresult
      exact ⟨rfl, hobstructed, rfl, rfl, rfl⟩
    · exact fun hclear => absurd hobstructed (hclear reason)
  | ok value =>
    have hrevised : change.Revised access .storage store key (some value) world :=
      revised_set hvalue
    have hclear : ∀ reason, ¬datum.Obstructed reason := by
      intro reason hobstructed
      obtain ⟨first, hfirst⟩ := Datum.toValue_fails_iff.mpr ⟨reason, hobstructed⟩
      simp only [hvalue, reduceCtorEq] at hfirst
    have hstorable : ∀ name reason, change.result ≠ .error (.unstorable name reason) := by
      intro name reason hresult
      obtain ⟨failure, -, herror⟩ := hrevised.attempted.error hresult
      simp only [reduceCtorEq] at herror
    refine ⟨⟨?_, ?_⟩, fun name reason hresult => absurd hresult (hstorable name reason), ?_⟩
    · rintro ⟨reason, hresult⟩
      exact absurd hresult (hstorable key reason)
    · rintro ⟨reason, hobstructed⟩
      exact absurd hobstructed (hclear reason)
    · intro _
      refine ⟨value, rfl, hrevised, fun error herror => ?_⟩
      obtain ⟨failure, hwrite, hfailure⟩ := hrevised.attempted.error herror
      rw [hrevised.slot_eq] at hwrite
      exact ⟨failure, hwrite, hfailure⟩

end Settings.Store
