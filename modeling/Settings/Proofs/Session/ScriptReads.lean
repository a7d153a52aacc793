import Settings.Proofs.Session.Mapping
import Settings.Proofs.Store.ScriptCalls
import Settings.Proofs.Store.ScriptReads

/-!
# What a script reads after a run

A script that sets, drops and reads settings could keep the texts of its values itself.
What it would then read under a key is said here without a store: the text that was left
by the last call on the key, read again, or else the property of the stored text with
which everything began. A call whose value is refused while it is converted leaves
nothing, one whose writing fails leaves what it would have left otherwise. The store for
scripts answers like this after every run in which no other one is opened under its name,
up to the order of keys, and never throws. Each step keeps that correspondence, which is
the induction.
-/

namespace Settings.Session

open Json (Document Members)
open Storage (Handle World Items)
open Store (ReadsAs ShownAlike PlainText storedProperty)

/-! ### What calls leave -/

/-- What a call leaves under a key. -/
inductive Left where
  /-- The text of a value. -/
  | text (text : List Char)
  /-- Nothing: the setting was dropped, or its value has no text. -/
  | nothing
deriving DecidableEq

/-- What a step leaves under a key of the store for scripts of a name, unless it is no
call on the key or its value is refused while it is converted. -/
def Step.leaves? (name key : String) : Step → Option Left
  | .setScripted store k value =>
    if store = name ∧ k = key then
      match Script.stringify value with
      | .error _ => none
      | .ok none => some .nothing
      | .ok (some written) =>
        match Json.read written with
        | .error _ => none
        | .ok _ => some (.text written)
    else none
  | .removeScripted store k => if store = name ∧ k = key then some .nothing else none
  | _ => none

/-- What the last of the calls on a key left that left anything. -/
def lastLeft (name key : String) (steps : List Step) : Option Left :=
  (steps.filterMap (Step.leaves? name key)).getLast?

/-- What a script expects under a key: what its last call left, and without one the
property of the stored text. -/
def expected (key : String) (raw : Option String) :
    Option Left → Except Json.Failure (Option Script.Value)
  | some (.text text) => (Script.parse text).map some
  | some .nothing => .ok none
  | none => storedProperty key raw

/-- A further step leaves what it leaves, or what was left before. -/
theorem lastLeft_append (name key : String) (past : List Step) (step : Step) :
    lastLeft name key (past ++ [step]) =
      (step.leaves? name key).or (lastLeft name key past) := by
  unfold lastLeft
  rw [List.filterMap_append, List.getLast?_append]
  cases h : step.leaves? name key with
  | none => simp [h]
  | some left => simp [h]

/-! ### What a step makes of the settings -/

/-- What a step revises in the store for scripts of a name, whether its writing fails or
not. -/
def Step.scriptRevision? (name : String) : Step → Option Revision
  | .setScripted store key value =>
    if store = name then (Store.fromScript value).toOption.map fun stored => ⟨key, stored⟩
    else none
  | .removeScripted store key => if store = name then some ⟨key, none⟩ else none
  | _ => none

/-- What a step makes of the settings that the store for scripts of a name holds. -/
def Step.scriptEdit (name : String) (step : Step) (document : Document) : Document :=
  match step.scriptRevision? name with
  | some revision => revision.document document
  | none => document

/-- The store that a call leaves, whether its writing fails or not. -/
theorem store_setForScript {σ : Type} (access : Storage.Access σ) (store : Store)
    (key : String) (value : Script.Value) (world : σ) :
    (store.setForScript access key value world).store =
      ⟨store.slot, match Store.fromScript value with
        | .ok (some stored) => Members.insert key stored store.document
        | .ok none => Members.erase key store.document
        | .error _ => store.document⟩ := by
  unfold Store.setForScript
  rcases Store.fromScript value with thrown | _ | stored <;> rfl

variable {session : Session} {name : String} {bound : Bound}

/-- A step that opens no store for scripts under a name edits the one of that name as it
says, whatever the storage does. -/
theorem find?_scripted_step (hfind : session.scripted.find? name = some bound) {step : Step}
    (hopen : ∀ storage slot, step ≠ .openScripted name storage slot) :
    (session.step step).session.scripted.find? name =
      some (bound.edited (step.scriptEdit name)) := by
  cases step with
  | openScripted store storage slot =>
    have hne : store ≠ name := fun h => hopen storage slot (by rw [h])
    exact withStorage_cases (Q := fun outcome => outcome.session.scripted.find? name = some bound)
      hfind fun handle _ => find?_openHeld .script hfind hne slot handle
  | setScripted store key value =>
    refine find?_changeHeld .script hfind (fun h => ?_) fun h => ?_
    · rw [store_setForScript, Step.scriptEdit, Step.scriptRevision?, if_pos h]
      rcases Store.fromScript value with thrown | _ | stored <;> rfl
    · rw [Step.scriptEdit, Step.scriptRevision?, if_neg h]
  | removeScripted store key =>
    refine find?_changeHeld .script hfind (fun h => ?_) fun h => ?_
    · rw [Step.scriptEdit, Step.scriptRevision?, if_pos h]
      rfl
    · rw [Step.scriptEdit, Step.scriptRevision?, if_neg h]
  | _ =>
    refine find?_held_of_holder? .script hfind fun h => ?_
    cases h

/-! ### What a step leaves is what is found -/

/-- All numbers of a value that a step sets in the store for scripts of a name are safe
integers or not finite. -/
def Step.SetsSafe (name : String) (step : Step) : Prop :=
  ∀ key value, step = .setScripted name key value → value.Safe

/-- What a set revises in the store for scripts of its name. -/
theorem scriptEdit_set {key : String} {value : Script.Value} {stored : Option Json.Value}
    (h : Store.fromScript value = .ok stored) (document : Document) :
    (Step.setScripted name key value).scriptEdit name document =
      (Revision.mk key stored).document document := by
  rw [Step.scriptEdit, Step.scriptRevision?, if_pos rfl, h]
  rfl

/-- A set whose value is refused revises nothing. -/
theorem scriptEdit_refused {key : String} {value thrown : Script.Value}
    (h : Store.fromScript value = .error thrown) (document : Document) :
    (Step.setScripted name key value).scriptEdit name document = document := by
  rw [Step.scriptEdit, Step.scriptRevision?, if_pos rfl, h]
  rfl

/-- A set is refused and leaves nothing under its key, or drops the setting, or stores
what its text is read as and leaves the text. -/
theorem set_cases (name key : String) (value : Script.Value) :
    (∃ thrown, Store.fromScript value = .error thrown ∧
      (Step.setScripted name key value).leaves? name key = none) ∨
    (Store.fromScript value = .ok none ∧
      (Step.setScripted name key value).leaves? name key = some .nothing) ∨
    ∃ written stored, Script.stringify value = .ok (some written) ∧
      Json.read written = .ok stored ∧ Store.fromScript value = .ok (some stored) ∧
      (Step.setScripted name key value).leaves? name key = some (.text written) := by
  have hleaves : (Step.setScripted name key value).leaves? name key = _ := if_pos ⟨rfl, rfl⟩
  rw [hleaves]
  unfold Store.fromScript
  cases ht : Script.stringify value with
  | error thrown => exact .inl ⟨thrown, rfl, rfl⟩
  | ok text =>
    cases text with
    | none => exact .inr (.inl ⟨rfl, rfl⟩)
    | some written =>
      simp only [bind, Except.bind]
      cases hr : Json.read written with
      | error failure => exact .inl ⟨_, rfl, rfl⟩
      | ok stored => exact .inr (.inr ⟨written, stored, rfl, hr, rfl, rfl⟩)

/-- The settings meet what a script expects under every key after steps. -/
def Meets (name : String) (raw : Option String) (past : List Step) (document : Document) : Prop :=
  ∀ key, ∃ value, expected key raw (lastLeft name key past) = .ok value ∧
    ShownAlike (Members.find? key document) value

section Meets

variable {raw : Option String} {past : List Step} {document : Document} {step : Step}
  {key : String}

/-- Under a key on which nothing was left the expectation is met as before. -/
theorem Meets.keep (h : Meets name raw past document) (hnone : step.leaves? name key = none)
    (hsame : Members.find? key (step.scriptEdit name document) = Members.find? key document) :
    ∃ value, expected key raw (lastLeft name key (past ++ [step])) = .ok value ∧
      ShownAlike (Members.find? key (step.scriptEdit name document)) value := by
  rw [lastLeft_append, hnone, Option.none_or, hsame]
  exact h key

/-- Where something was left it is what must be met. -/
theorem Meets.leave {left : Left} (hsome : step.leaves? name key = some left)
    {value : Option Script.Value} (hvalue : expected key raw (some left) = .ok value)
    (hshown : ShownAlike (Members.find? key (step.scriptEdit name document)) value) :
    ∃ value, expected key raw (lastLeft name key (past ++ [step])) = .ok value ∧
      ShownAlike (Members.find? key (step.scriptEdit name document)) value := by
  rw [lastLeft_append, hsome, Option.some_or]
  exact ⟨value, hvalue, hshown⟩

/-- A set keeps the expectation met under its own key: it is refused, drops the setting
or leaves the text of its value. -/
theorem Meets.set_self (h : Meets name raw past document) (hasc : Members.Ascending document)
    {value : Script.Value} (hsafe : value.Safe) :
    ∃ met, expected key raw (lastLeft name key (past ++ [.setScripted name key value])) = .ok met ∧
      ShownAlike (Members.find? key
        ((Step.setScripted name key value).scriptEdit name document)) met := by
  rcases set_cases name key value with ⟨thrown, hfrom, hleaves⟩ | ⟨hfrom, hleaves⟩ |
    ⟨written, stored, ht, hr, hfrom, hleaves⟩
  · exact h.keep hleaves (by rw [scriptEdit_refused hfrom])
  · refine Meets.leave hleaves rfl ?_
    rw [scriptEdit_set hfrom, Revision.find?_document hasc, Revision.mapping, if_pos rfl]
    exact .none
  · obtain ⟨u, hparse, hshown⟩ := Store.shown_fromScript hsafe ht hr
    have hmet : expected key raw (some (.text written)) = .ok (some u) := by
      rw [expected, hparse]
      rfl
    refine Meets.leave hleaves hmet ?_
    rw [scriptEdit_set hfrom, Revision.find?_document hasc, Revision.mapping, if_pos rfl]
    exact .some hshown

/-- A set leaves what is found under other keys as it was. -/
theorem find?_scriptEdit_other (hasc : Members.Ascending document) {k : String} (hk : key ≠ k)
    (value : Script.Value) :
    Members.find? key ((Step.setScripted name k value).scriptEdit name document) =
      Members.find? key document := by
  cases hfrom : Store.fromScript value with
  | error thrown => rw [scriptEdit_refused hfrom]
  | ok stored =>
    rw [scriptEdit_set hfrom, Revision.find?_document hasc, Revision.mapping, if_neg hk]

/-- Every step keeps the expectation met. -/
theorem Meets.after_step (h : Meets name raw past document) (hasc : Members.Ascending document)
    (hsafe : step.SetsSafe name) :
    Meets name raw (past ++ [step]) (step.scriptEdit name document) := by
  intro key
  cases step with
  | setScripted store k value =>
    by_cases hs : store = name
    · subst hs
      by_cases hk : k = key
      · subst hk
        exact h.set_self hasc (hsafe k value rfl)
      · exact h.keep (if_neg fun he => hk he.2)
          (find?_scriptEdit_other hasc (fun he => hk he.symm) value)
    · refine h.keep (if_neg fun he => hs he.1) ?_
      rw [Step.scriptEdit, Step.scriptRevision?, if_neg hs]
  | removeScripted store k =>
    by_cases hs : store = name
    · subst hs
      have hedit : (Step.removeScripted store k).scriptEdit store document =
          (Revision.mk k none).document document := by
        rw [Step.scriptEdit, Step.scriptRevision?, if_pos rfl]
      by_cases hk : k = key
      · subst hk
        refine Meets.leave (if_pos ⟨rfl, rfl⟩) rfl ?_
        rw [hedit, Revision.find?_document hasc, Revision.mapping, if_pos rfl]
        exact .none
      · refine h.keep (if_neg fun he => hk he.2) ?_
        rw [hedit, Revision.find?_document hasc, Revision.mapping, if_neg fun he => hk he.symm]
    · refine h.keep (if_neg fun he => hs he.1) ?_
      rw [Step.scriptEdit, Step.scriptRevision?, if_neg hs]
  | _ => exact h.keep rfl rfl

end Meets

/-- An edit keeps the keys ascending. -/
theorem ascending_scriptEdit {document : Document} (h : Members.Ascending document)
    (step : Step) : Members.Ascending (step.scriptEdit name document) := by
  unfold Step.scriptEdit
  split
  · exact Revision.ascending h _
  · exact h

/-! ### Runs -/

/-- The store for scripts of a name stands on a handle and meets what a script expects
after steps. -/
structure Serves (session : Session) (name : String) (handle : Handle) (slot : String)
    (raw : Option String) (past : List Step) (document : Document) : Prop where
  /-- The store stands under its name. -/
  find?_eq : session.scripted.find? name = some ⟨handle, slot, document⟩
  /-- The keys of its settings ascend. -/
  ascending : Members.Ascending document
  /-- Its settings meet what is expected. -/
  meets : Meets name raw past document

/-- After further steps, none of which opens a store for scripts under the name, the store
meets what is expected then. -/
theorem Serves.after {session : Session} {handle : Handle} {slot : String} {raw : Option String}
    {past : List Step} {document : Document}
    (h : session.Serves name handle slot raw past document) {steps : List Step}
    (hopen : ∀ step ∈ steps, ∀ storage slot, step ≠ .openScripted name storage slot)
    (hsafe : ∀ step ∈ steps, step.SetsSafe name) :
    ∃ document, (session.after steps).Serves name handle slot raw (past ++ steps) document := by
  induction steps generalizing session past document with
  | nil =>
    rw [List.append_nil]
    exact ⟨document, h⟩
  | cons first rest ih =>
    obtain ⟨hopenFirst, hopenRest⟩ := List.forall_mem_cons.mp hopen
    obtain ⟨hsafeFirst, hsafeRest⟩ := List.forall_mem_cons.mp hsafe
    have hstep : (session.step first).session.Serves name handle slot raw (past ++ [first])
        (first.scriptEdit name document) :=
      ⟨find?_scripted_step h.find?_eq hopenFirst, ascending_scriptEdit h.ascending first,
        h.meets.after_step h.ascending hsafeFirst⟩
    have hrest := ih hstep hopenRest hsafeRest
    rwa [List.append_assoc, List.singleton_append] at hrest

/-- A page gives back a well-formed text that it holds. -/
theorem read_page {world : World} {number : Nat} {slot : String} {text raw : Option String}
    (hread : (Handle.page number).access.read slot world = .ok text)
    (hitem : (world.page number).items.find? (Text.unitsOf slot) = raw.map Text.unitsOf) :
    text = raw := by
  have hpage : (world.page number).read slot = .ok text := hread
  unfold Storage.Page.read at hpage
  split at hpage
  · cases hpage
  · rw [Storage.Page.text?, hitem] at hpage
    cases hpage
    cases raw with
    | none => rfl
    | some text => exact congrArg some (Text.hostText_unitsOf text)

/-- A store for scripts that is opened on a page holds what the text under its slot is
loaded as. -/
theorem serves_openScripted {session : Session} (name : String) {storage : String}
    (slot : Option String) {number : Nat} {raw : Option String}
    (hstorage : session.storages.find? storage = some (.page number))
    (hitem : (session.world.page number).items.find? (Text.unitsOf (slot.getD Store.defaultSlot)) =
      raw.map Text.unitsOf)
    (hopened : (session.step (.openScripted name storage slot)).answer = .done)
    (hplain : PlainText raw) :
    ∃ loaded, (session.step (.openScripted name storage slot)).session.Serves name
      (.page number) (slot.getD Store.defaultSlot) raw [] loaded := by
  have hstep : session.step (.openScripted name storage slot) =
      session.openScripted name slot (.page number) := withStorage_of_find? hstorage _
  rw [hstep] at hopened ⊢
  unfold openScripted at hopened
  rcases hresult : Store.openForScript (Handle.page number).access (slot.getD Store.defaultSlot)
    session.world with ⟨thrown | store, effects⟩
  · rw [hresult] at hopened
    cases hopened
  · have hfirst : (Store.openForScript (Handle.page number).access (slot.getD Store.defaultSlot)
        session.world).1 = .ok store := congrArg Prod.fst hresult
    obtain ⟨hslot, text, hread, hload⟩ :=
      Store.openSlot_loaded (Store.openForScript_ok_iff.mp hfirst)
    obtain rfl : text = raw := read_page hread hitem
    refine ⟨store.document, ?_, (Store.load_ok hload).ascending, fun key =>
      Store.shownAlike_load hload hplain key⟩
    rw [← hslot]
    exact find?_openHeld_self .script (Store.openForScript_ok_iff.mp hfirst)

/-- After a store for scripts was opened on a page and whatever steps followed, of which
none opened another one under its name, a read under any key gives a setting that is like
what a plain script would expect there, or the default itself where it would expect
nothing. -/
theorem scriptReads_after {session : Session} (name : String) {storage : String}
    (slot : Option String) {number : Nat} {raw : Option String}
    (hstorage : session.storages.find? storage = some (.page number))
    (hitem : (session.world.page number).items.find? (Text.unitsOf (slot.getD Store.defaultSlot)) =
      raw.map Text.unitsOf)
    (hopened : (session.step (.openScripted name storage slot)).answer = .done)
    (hplain : PlainText raw) {steps : List Step}
    (hopen : ∀ step ∈ steps, ∀ storage slot, step ≠ .openScripted name storage slot)
    (hsafe : ∀ step ∈ steps, step.SetsSafe name) :
    ∃ store, ((session.step (.openScripted name storage slot)).session.after
        steps).scripted.find? name = some ⟨.page number, store⟩ ∧
      ∀ key default, ∃ value, expected key raw (lastLeft name key steps) = .ok value ∧
        ReadsAs default (store.getForScript key default) value := by
  obtain ⟨loaded, hserves⟩ := serves_openScripted name slot hstorage hitem hopened hplain
  obtain ⟨document, hafter⟩ := hserves.after hopen hsafe
  refine ⟨⟨_, document⟩, hafter.find?_eq, fun key default => ?_⟩
  obtain ⟨value, hvalue, hshown⟩ := hafter.meets key
  have hfind : ShownAlike (Store.find? ⟨slot.getD Store.defaultSlot, document⟩ key) value := hshown
  exact ⟨value, hvalue, Store.readsAs_of_shownAlike hfind default⟩

/-- A stored text with a repeated key, a negative number and an escaped pair of surrogates. -/
def mixedText : String :=
  "\x7b\"b\": 1, \"a\": [-5, null], \"b\": \"\\uD83D\\uDE00\"\x7d"

/-- A page that holds the text under the default slot. -/
def mixedPage : Session :=
  start.after [.page "page" [(Text.unitsOf "operaton", Text.unitsOf mixedText)]]

/-- Zero is finite. -/
theorem zero_lt_infinityRank : 0 < Binary.double.infinityRank := by decide

/-- A zero of a script. -/
def zeroValue (negative : Bool) : Script.Value :=
  .number (.finite ⟨negative, 0, zero_lt_infinityRank⟩)

/-- A value with an index among its keys, minus zero in an array that another value
offers, a number that is not finite and a property without text. -/
def mixedValue : Script.Value :=
  .object [(Text.unitsOf "1", .standIn (.array [zeroValue true, .undefined])),
    (Text.unitsOf "z", .number .nan), (Text.unitsOf "__proto__", .symbol none)]

/-- A set whose writing fails, one that is refused, one without a text, and a removal of
what was stored. -/
def mixedCalls : List Step :=
  [.fail "page" none (some (.thrown .null)), .setScripted "script" "filter" mixedValue,
    .setScripted "script" "filter" (.bigint 1), .setScripted "script" "gone" .undefined,
    .removeScripted "script" "a"]

/-- The numbers of the value are zero and one that is not finite. -/
theorem safe_mixedValue : mixedValue.Safe := by
  have hnumbers : mixedValue.numbers = [.finite ⟨true, 0, zero_lt_infinityRank⟩, .nan] := rfl
  intro x hx
  rw [hnumbers] at hx
  rcases List.mem_cons.mp hx with rfl | hx
  · exact ⟨0, Nat.zero_le _, by decide +kernel⟩
  · rw [List.mem_singleton.mp hx]
    trivial

/-- All numbers that the calls set are safe. -/
theorem mixedCalls_safe : ∀ step ∈ mixedCalls, step.SetsSafe "script" := by
  intro step hstep key value he
  subst he
  simp only [mixedCalls, List.mem_cons, List.not_mem_nil, reduceCtorEq, Step.setScripted.injEq,
    true_and, false_or, or_false] at hstep
  rcases hstep with ⟨-, rfl⟩ | ⟨-, rfl⟩ | ⟨-, rfl⟩
  · exact safe_mixedValue
  · nofun
  · nofun

/-- The set whose writing failed is read back, what was removed is not, and the last of
the repeated keys is what is read of the stored text. -/
theorem scriptReads_after_mixedCalls :
    ∃ store, ((mixedPage.step (.openScripted "script" "page" none)).session.after
        mixedCalls).scripted.find? "script" = some ⟨.page 0, store⟩ ∧
      ReadsAs .null (store.getForScript "filter" .null) (some (.object
        [(Text.unitsOf "1", .array [zeroValue false, .null]), (Text.unitsOf "z", .null)])) ∧
      ReadsAs (.bool true) (store.getForScript "a" (.bool true)) none ∧
      ReadsAs .null (store.getForScript "b" .null) (some (.string (Text.unitsOf "😀"))) := by
  have hstorage : mixedPage.storages.find? "page" = some (.page 0) := rfl
  have hitem : (mixedPage.world.page 0).items.find? (Text.unitsOf "operaton") =
      (some mixedText).map Text.unitsOf := rfl
  have hopened : (mixedPage.step (.openScripted "script" "page" none)).answer = .done := rfl
  have htree : Json.readTree mixedText = .ok (.object [
      ([.char 'b'], .number ⟨false, ['1'], [], none⟩),
      ([.char 'a'], .array [.number ⟨true, ['5'], [], none⟩, .null]),
      ([.char 'b'], .string [.unit 0xD83D, .unit 0xDE00])]) := rfl
  have hplain : PlainText (some mixedText) := by
    intro text ht tree hread l hl
    cases ht
    rw [htree] at hread
    cases hread
    rcases List.mem_cons.mp hl with rfl | hl
    · exact ⟨rfl, rfl, by decide⟩
    · rw [List.mem_singleton.mp hl]
      exact ⟨rfl, rfl, by decide⟩
  have hopen : ∀ step ∈ mixedCalls, ∀ storage slot,
      step ≠ .openScripted "script" storage slot := by
    simp [mixedCalls]
  obtain ⟨store, hfind, hreads⟩ :=
    scriptReads_after "script" none hstorage hitem hopened hplain hopen mixedCalls_safe
  have hread {key : String} {default : Script.Value} {value : Option Script.Value}
      (h : expected key (some mixedText) (lastLeft "script" key mixedCalls) = .ok value) :
      ReadsAs default (store.getForScript key default) value := by
    obtain ⟨value', hvalue, hread⟩ := hreads key default
    rw [h] at hvalue
    cases hvalue
    exact hread
  exact ⟨store, hfind, hread rfl, hread rfl, hread rfl⟩

end Settings.Session
