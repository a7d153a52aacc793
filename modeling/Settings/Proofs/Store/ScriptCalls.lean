import Settings.Proofs.Store.Reopen
import Settings.Store.Scripted

/-!
# Calls of a script

A script sets values of its own, which are read from their texts before they are
stored. That reading allows for as many nested containers as a whole stored text
may have, which is one more than a setting may have inside the braces of all
settings. So a call may succeed and leave a text behind that is refused.
-/

namespace Settings.Store

open Json (Value Document Members)
open Storage (Access)

/-- A call of a script that changes a store. -/
inductive ScriptCall where
  /-- Set a setting to a script value. -/
  | set (key : String) (value : Script.Value)
  /-- Drop a setting. -/
  | remove (key : String)

/-- Make a call. -/
def ScriptCall.apply {σ : Type} (access : Access σ) (call : ScriptCall) (store : Store)
    (world : σ) : Change Script.Value σ :=
  match call with
  | .set key value => store.setForScript access key value world
  | .remove key => store.removeForScript access key world

/-- A script value is stored as a value that a reader may yield. -/
theorem fromScript_within {value : Script.Value} {stored : Value}
    (h : fromScript value = .ok (some stored)) : stored.Within Json.greatestDepth := by
  unfold fromScript at h
  cases hs : Script.stringify value with
  | error thrown => rw [hs] at h; cases h
  | ok text =>
    rw [hs] at h
    cases text with
    | none => cases h
    | some text =>
      simp only [bind, Except.bind] at h
      cases hr : Json.read text with
      | error failure => rw [hr] at h; cases h
      | ok v => rw [hr] at h; cases h; exact Json.read_ok hr

variable {σ : Type} {access : Access σ} {holds : σ → Prop} {slot : String} {store : Store}
  {world : σ}

/-- A change that succeeds returns to the script and keeps what it kept. -/
theorem kept_forScript {levels : Nat} {change : Change Error σ}
    (h : change.result = .ok () ∧ Kept access holds levels slot change.store change.world) :
    change.forScript.result = .ok () ∧
      Kept access holds levels slot change.forScript.store change.forScript.world := by
  refine ⟨?_, h.2⟩
  show change.result.mapError _ = _
  rw [h.1]
  rfl

/-- A call either throws and changes nothing, or returns and keeps what the store
holds then. -/
theorem call_cases (hr : access.Reliable holds)
    (h : Running holds Json.greatestDepth slot store world) (call : ScriptCall) :
    (∃ thrown, call.apply access store world = ⟨.error thrown, store, world, []⟩) ∨
    ((call.apply access store world).result = .ok () ∧
      Kept access holds Json.greatestDepth slot (call.apply access store world).store
        (call.apply access store world).world) := by
  cases call with
  | remove key => exact Or.inr (kept_forScript (kept_remove hr h key))
  | set key value =>
    rw [ScriptCall.apply, setForScript]
    cases hv : fromScript value with
    | error thrown => exact Or.inl ⟨thrown, rfl⟩
    | ok stored =>
      cases stored with
      | none => exact Or.inr (kept_forScript (kept_remove hr h key))
      | some stored => exact Or.inr (kept_forScript (kept_put hr h key (fromScript_within hv)))

/-- A store stays running whatever is called. -/
theorem running_calls (hr : access.Reliable holds)
    (h : Running holds Json.greatestDepth slot store world) (calls : List ScriptCall) :
    Running holds Json.greatestDepth slot (after (ScriptCall.apply access) calls store world).1
      (after (ScriptCall.apply access) calls store world).2 := by
  refine after_preserves (P := Running holds Json.greatestDepth slot)
    (fun call _ store world h => ?_) h
  rcases call_cases hr h call with ⟨thrown, hc⟩ | ⟨-, hkept⟩
  · rw [hc]
    exact h
  · exact hkept.toRunning

/-- A store for scripts is opened when a store is. -/
theorem openForScript_ok_iff {result : Store} :
    (openForScript access slot world).1 = .ok result ↔
      (openSlot access slot world).1 = .ok result := by
  have hfirst : (openForScript access slot world).1 =
      (openSlot access slot world).1.mapError fun error => thrownError error.line := rfl
  rw [hfirst]
  cases (openSlot access slot world).1 with
  | error error => exact iff_of_false nofun nofun
  | ok opened => rw [Except.mapError, Except.ok.injEq, Except.ok.injEq]

/-- Over kept settings a store is opened when each setting leaves room for the
braces around it. -/
theorem Kept.opens_iff {levels : Nat} (h : Kept access holds levels slot store world) :
    (∃ reopened, (openForScript access slot world).1 = .ok reopened) ↔
      ∀ key value, store.find? key = some value → value.depth ≤ 126 := by
  have hdepth : (Value.object store.document).depth ≤ Json.greatestDepth ↔
      ∀ key value, store.find? key = some value → value.depth ≤ 126 := by
    refine Json.depth_object_le_iff.trans ⟨fun hm key value hf => ?_, fun hf m hm => ?_⟩
    · exact hm _ (Members.mem_of_find? hf)
    · exact hf m.1 m.2 (Members.find?_of_mem h.sound.ascending hm)
  rw [← hdepth]
  constructor
  · rintro ⟨reopened, ho⟩
    by_contra hd
    obtain ⟨reason, hrefused⟩ := h.reopen_refused (Nat.not_le.mp hd)
    rw [openForScript_ok_iff, hrefused] at ho
    cases ho
  · intro hd
    exact ⟨_, openForScript_ok_iff.mpr (h.reopen hd)⟩

/-- After a call that returns, over a page that throws nothing, a new store for
scripts is opened on the slot exactly when no setting of the first one is nested
more than 126 deep. -/
theorem openForScript_after_calls_iff {number : Nat} {world : Storage.World}
    (hw : (Storage.Handle.page number).Working world)
    (hopen : (openForScript (Storage.Handle.page number).access slot world).1 = .ok store)
    (calls : List ScriptCall) (last : ScriptCall) :
    let access := (Storage.Handle.page number).access
    let before := after (ScriptCall.apply access) calls store world
    let change := last.apply access before.1 before.2
    change.result = .ok () →
      ((∃ reopened, (openForScript access slot change.world).1 = .ok reopened) ↔
        ∀ key value, change.store.find? key = some value → value.depth ≤ 126) := by
  intro access before change hreturns
  have hr := (Storage.Handle.page number).reliable
  have hopened := running_open hw (openForScript_ok_iff.mp hopen)
  have hrun : Running _ Json.greatestDepth slot store world :=
    ⟨hopened.working, hopened.slot_eq, hopened.sound.mono (by decide)⟩
  rcases call_cases hr (running_calls hr hrun calls) last with ⟨thrown, hc⟩ | ⟨-, hkept⟩
  · -- a call that throws does not return
    have hthrows : change.result = .error thrown := congrArg Change.result hc
    rw [hthrows] at hreturns
    cases hreturns
  · exact hkept.opens_iff

/-! ### Two runs over a page -/

/-- A page without items that throws nothing. -/
def quietPage : Storage.World := ⟨[], [], [⟨[], .none⟩]⟩

/-- The handle on the page works. -/
theorem working_quietPage : (Storage.Handle.page 0).Working quietPage :=
  ⟨by decide, rfl⟩

/-- After a flag was set and a setting that is not there was dropped, a new store
is opened. -/
theorem openForScript_after_flag :
    let access := (Storage.Handle.page 0).access
    let before := after (ScriptCall.apply access) [.set "flag" (.bool true)] ⟨"operaton", []⟩
      quietPage
    let change := (ScriptCall.remove "gone").apply access before.1 before.2
    change.result = .ok () ∧
      ∃ reopened, (openForScript access "operaton" change.world).1 = .ok reopened := by
  intro access before change
  have hreturns : change.result = .ok () := rfl
  have hdocument : change.store.document = [("flag", .bool true)] := rfl
  refine ⟨hreturns, (openForScript_after_calls_iff working_quietPage rfl
    [.set "flag" (.bool true)] (.remove "gone") hreturns).mpr fun key value hfind => ?_⟩
  have hmem := Members.mem_of_find? hfind
  rw [hdocument, List.mem_singleton] at hmem
  cases hmem
  exact Nat.zero_le _

/-- An empty array inside so many others. -/
def nestedArrays : Nat → Script.Value
  | 0 => .array []
  | n + 1 => .array [nestedArrays n]

/-- The stored value of an empty array inside so many others. -/
def nestedValue : Nat → Value
  | 0 => .array []
  | n + 1 => .array [nestedValue n]

/-- Nested arrays are written as their stored value is. -/
theorem textOf_nestedArrays (n : Nat) :
    Script.textOf false (nestedArrays n) = .ok (some (nestedValue n).text) := by
  induction n with
  | zero => rfl
  | succ n ih =>
    rw [nestedArrays, Script.textOf, Script.textsOfItems, ih, Script.textsOfItems, nestedValue,
      Json.text_array_cons]
    simp only [bind, Except.bind, pure, Except.pure, Option.getD_some, Script.joined,
      List.intersperse, List.flatten_cons, List.flatten_nil, List.append_nil, List.map_nil,
      Json.rowText]

/-- Nested arrays are reread as themselves. -/
theorem nestedValue_reread (n : Nat) : (nestedValue n).reread = nestedValue n := by
  induction n with
  | zero => rfl
  | succ n ih => rw [nestedValue, Value.reread, Json.rereadItems, ih, Json.rereadItems]

/-- The innermost array counts too. -/
theorem nestedValue_depth (n : Nat) : (nestedValue n).depth = n + 1 := by
  induction n with
  | zero => rfl
  | succ n ih =>
    rw [nestedValue, Value.depth, Json.depthOfItems, ih, Json.depthOfItems, Nat.max_zero]

/-- Nested arrays are stored as long as a whole text could hold them. -/
theorem fromScript_nestedArrays {n : Nat} (h : n < 127) :
    fromScript (nestedArrays n) = .ok (some (nestedValue n)) := by
  have hdepth : (nestedValue n).depth ≤ Json.greatestDepth := by
    rw [nestedValue_depth]
    exact h
  have hread : Json.read (nestedValue n).text = .ok (nestedValue n) := by
    rw [Json.read, Json.whole_text hdepth, nestedValue_reread]
  rw [fromScript, Script.stringify, textOf_nestedArrays]
  simp only [bind, Except.bind, hread, pure, Except.pure]

/-- A call that sets 127 arrays in one another returns, and after it no store is
opened on the slot. -/
theorem set_prevents_reopening :
    let access := (Storage.Handle.page 0).access
    let change := (ScriptCall.set "deep" (nestedArrays 126)).apply access ⟨"operaton", []⟩
      quietPage
    (openForScript access "operaton" quietPage).1 = .ok ⟨"operaton", []⟩ ∧
      change.result = .ok () ∧
      ¬∃ reopened, (openForScript access "operaton" change.world).1 = .ok reopened := by
  intro access change
  have hfrom : fromScript (nestedArrays 126) = .ok (some (nestedValue 126)) :=
    fromScript_nestedArrays (by decide)
  have hrun : Running (Storage.Handle.page 0).Working Json.greatestDepth "operaton"
      ⟨"operaton", []⟩ quietPage := ⟨working_quietPage, rfl, sound_nil _⟩
  have hchange : change =
      (put ⟨"operaton", []⟩ access "deep" (nestedValue 126) quietPage).forScript := by
    show ScriptCall.apply _ _ _ _ = _
    rw [ScriptCall.apply, setForScript, hfrom]
  obtain ⟨hreturns, hkept⟩ := kept_forScript
    (kept_put (Storage.Handle.page 0).reliable hrun "deep" (fromScript_within hfrom))
  rw [hchange, hkept.opens_iff]
  refine ⟨rfl, hreturns, fun h => ?_⟩
  have hdeep := h "deep" (nestedValue 126) rfl
  rw [nestedValue_depth] at hdeep
  omega

end Settings.Store
