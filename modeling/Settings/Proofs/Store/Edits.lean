import Settings.Proofs.Store.Reopen

/-!
# Edits by a host program

A host program sets stored values and drops settings. Over a storage that does
not fail, a new store on the slot is opened after any such edits, as long as no
value is nested too deep to stand inside the text of all settings. Whether it
agrees with the first store depends on the doubles alone.
-/

namespace Settings.Store

open Json (Value Document Members)
open Storage (Access)

/-- A change that a host program makes. -/
inductive Edit where
  /-- Set a setting to a stored value. -/
  | set (key : String) (value : Value)
  /-- Drop a setting. -/
  | remove (key : String)

/-- Make a change. -/
def Edit.apply {σ : Type} (access : Access σ) (edit : Edit) (store : Store) (world : σ) :
    Change Error σ :=
  match edit with
  | .set key value => store.set access key (.stored value) world
  | .remove key => store.remove access key world

/-- A value that is set is ordered and nested at most 126 deep. -/
def Edit.Fits : Edit → Prop
  | .set _ value => value.Ordered ∧ value.depth ≤ 126
  | .remove _ => True

variable {σ : Type} {access : Access σ} {holds : σ → Prop} {slot : String} {store : Store}
  {world : σ}

/-- An edit succeeds and keeps what the store holds then. -/
theorem kept_edit (hr : access.Reliable holds) {edit : Edit} (hfit : edit.Fits)
    (h : Running holds 126 slot store world) :
    Kept access holds 126 slot (edit.apply access store world).store
      (edit.apply access store world).world := by
  cases edit with
  | set key value =>
    have hset : store.set access key (.stored value) world = store.put access key value world := by
      rw [Store.set, Datum.toValue]
    rw [Edit.apply, hset]
    exact (kept_put hr h key ⟨hfit.1, hfit.2⟩).2
  | remove key => exact (kept_remove hr h key).2

/-- After at least one edit the slot has what the store holds. -/
theorem kept_edits (hr : access.Reliable holds) {edits : List Edit} (hne : edits ≠ [])
    (hfit : ∀ edit ∈ edits, edit.Fits) (h : Running holds 126 slot store world) :
    Kept access holds 126 slot (after (Edit.apply access) edits store world).1
      (after (Edit.apply access) edits store world).2 := by
  cases edits with
  | nil => exact absurd rfl hne
  | cons first rest =>
    rw [after]
    refine after_preserves (P := Kept access holds 126 slot) (fun edit hedit store world hk => ?_)
      (kept_edit hr (hfit first List.mem_cons_self) h)
    exact kept_edit hr (hfit edit (List.mem_cons_of_mem _ hedit)) hk.toRunning

/-- After at least one edit a new store is opened over the slot of a storage that
does not fail. It answers as the first store does exactly when every double that
the first store holds is read back from its text. -/
theorem reopen_agrees_iff (hr : access.Reliable holds) (hw : holds world)
    (hopen : (openSlot access slot world).1 = .ok store) {edits : List Edit} (hne : edits ≠ [])
    (hfit : ∀ edit ∈ edits, edit.Fits) :
    ∃ reopened,
      (openSlot access slot (after (Edit.apply access) edits store world).2).1 = .ok reopened ∧
      (reopened.Agrees (after (Edit.apply access) edits store world).1 ↔
        ∀ x ∈ (Value.object (after (Edit.apply access) edits store world).1.document).floats,
          Json.ReadsBack x) := by
  have hkept := kept_edits hr hne hfit (running_open hw hopen)
  exact ⟨_, hkept.reopen hkept.sound.depth_le, reread_agrees_iff hkept.sound⟩

/-! ### Two runs over memory -/

/-- An empty area of memory and a handle on it that does not fail. -/
def quietMemory : Storage.World := ⟨[[]], [.none], []⟩

/-- The handle works. -/
theorem working_quietMemory : (Storage.Handle.memory 0 0).Working quietMemory :=
  ⟨by decide, rfl⟩

/-- After one half was set and a setting that is not there was dropped, a new
store agrees with the first one. -/
theorem reopen_agrees_oneHalf :
    let access := (Storage.Handle.memory 0 0).access
    let edits : List Edit := [.set "ratio" (.number (.float Json.oneHalf)), .remove "gone"]
    let last := after (Edit.apply access) edits ⟨"operaton", []⟩ quietMemory
    ∃ reopened, (openSlot access "operaton" last.2).1 = .ok reopened ∧
      reopened.Agrees last.1 := by
  intro access edits last
  have hopen : (openSlot access "operaton" quietMemory).1 = .ok ⟨"operaton", []⟩ := rfl
  have hfit : ∀ edit ∈ edits, edit.Fits := by
    intro edit hedit
    rcases List.mem_cons.mp hedit with rfl | hedit
    · exact ⟨trivial, Nat.zero_le _⟩
    · rw [List.mem_singleton.mp hedit]
      trivial
  obtain ⟨reopened, hreopen, hagrees⟩ := reopen_agrees_iff (Storage.Handle.memory 0 0).reliable
    working_quietMemory hopen (List.cons_ne_nil _ _) hfit
  refine ⟨reopened, hreopen, hagrees.mpr fun x hx => ?_⟩
  rw [List.mem_singleton.mp hx]
  exact Json.readsBack_oneHalf

/-- After ten to the minus thirty was set, a new store is opened and does not
agree with the first one. -/
theorem reopen_changes_tenToMinus30 :
    let access := (Storage.Handle.memory 0 0).access
    let change := (Edit.set "tiny" (.number (.float Json.tenToMinus30))).apply access
      ⟨"operaton", []⟩ quietMemory
    (openSlot access "operaton" quietMemory).1 = .ok ⟨"operaton", []⟩ ∧
      change.result = .ok () ∧
      ∃ reopened, (openSlot access "operaton" change.world).1 = .ok reopened ∧
        ¬reopened.Agrees change.store := by
  intro access change
  have hrun : Running (Storage.Handle.memory 0 0).Working 126 "operaton" ⟨"operaton", []⟩
      quietMemory := ⟨working_quietMemory, rfl, sound_nil 126⟩
  have hfit : (Edit.set "tiny" (.number (.float Json.tenToMinus30))).Fits :=
    ⟨trivial, Nat.zero_le _⟩
  have hkept := kept_edit (Storage.Handle.memory 0 0).reliable hfit hrun
  refine ⟨rfl, rfl, _, hkept.reopen hkept.sound.depth_le, fun hagrees => ?_⟩
  have hreads := (reread_agrees_iff hkept.sound).mp hagrees
  exact Json.not_readsBack_tenToMinus30 (hreads Json.tenToMinus30 List.mem_cons_self)

end Settings.Store
