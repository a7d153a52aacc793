import Mathlib.Data.List.Nodup
import Settings.Store.Scripted

/-!
# What is thrown for a failure

A script learns of a failure by one message: that of the failure and then, after colons,
that of every failure behind it. A failure of the storage stands for itself, so its
message is not followed by the same message again, and the reason for which a text is
refused never reads like the failure that it is behind. What opening and what writing a
store can fail with is stated first; the other failures never reach a script.
-/

namespace Settings.Store

open Storage (Access)

/-- A thrown value tells a failure: it is an error with the message of the failure and
of each failure behind it, none of them twice. -/
structure Tells (thrown : Script.Value) (error : Error) : Prop where
  /-- The messages stand in order with colons between them. -/
  thrown_eq : thrown = .error "Error"
    (Text.unitsOf (error.message ++ String.join (error.sources.map (": " ++ ·))))
  /-- No message is there twice. -/
  once : (error.message :: error.sources).Nodup
  /-- A failure of the storage has the message of the storage alone. -/
  of_storage : ∀ cause, error = .storage cause →
    error.message = cause.message ∧ error.sources = []

/-! ### The line of a failure -/

/-- Messages that are appended with colons are joined with colons in front. -/
theorem foldl_colon (sources : List String) (text : String) :
    sources.foldl (fun text source => text ++ ": " ++ source) text =
      text ++ String.join (sources.map (": " ++ ·)) := by
  induction sources generalizing text with
  | nil => simp
  | cons source rest ih =>
    rw [List.foldl_cons, ih, List.map_cons, String.join_cons, String.append_assoc,
      String.append_assoc, String.append_assoc]

/-- The line of a failure is its message with each source after a colon. -/
theorem Error.line_eq (error : Error) :
    error.line = error.message ++ String.join (error.sources.map (": " ++ ·)) :=
  foldl_colon error.sources error.message

/-- No refusal is told by a message that starts like the one of a refused text. -/
theorem head_refusalMessage (reason : Json.Refusal) : reason.message.toList.head? ≠ some 's' := by
  rw [Json.Refusal.message, String.toList_append]
  cases reason.cause <;> simp [Json.Cause.message]

/-- The reason for a refusal reads otherwise than the failure that it is behind. -/
theorem malformedMessage_ne (slot : String) (reason : Json.Refusal) :
    (Error.malformed slot reason).message ≠ reason.message := by
  intro h
  have hhead (rest : String) :
      ("stored configuration under `" ++ slot ++ rest).toList.head? = some 's' := by
    simp
  have hmessage := hhead "` is not valid JSON"
  exact head_refusalMessage reason (h ▸ hmessage)

/-! ### What a script is thrown -/

/-- A failure whose messages differ is told by what is thrown for it. -/
theorem tells_thrownError {error : Error} (h : (error.message :: error.sources).Nodup) :
    Tells (thrownError error.line) error where
  thrown_eq := by rw [thrownError, Error.line_eq]
  once := h
  of_storage := by
    rintro cause rfl
    exact ⟨rfl, rfl⟩

/-- A failure of the storage is told by what is thrown for it. -/
theorem tells_storage (cause : Storage.Error) :
    Tells (thrownError (Error.storage cause).line) (.storage cause) :=
  tells_thrownError (List.nodup_singleton _)

/-- Why a text is not loaded is told by what is thrown for it. -/
theorem tells_of_load {slot : String} {text : Option String} {error : Error}
    (h : load slot text = .error error) : Tells (thrownError error.line) error := by
  cases text with
  | none => cases h
  | some text =>
    unfold load at h
    dsimp only at h
    split at h
    · cases h
    · split at h
      · next reason _ =>
        cases h
        refine tells_thrownError (List.nodup_cons.mpr ⟨fun hmem => ?_, List.nodup_singleton _⟩)
        exact malformedMessage_ne slot reason (List.mem_singleton.mp hmem)
      · cases h
      · cases h
        exact tells_thrownError (List.nodup_singleton _)

variable {σ : Type} {access : Access σ} {world : σ}

/-- Why a store is not opened is told by what is thrown for it. -/
theorem tells_of_openSlot {slot : String} {error : Error}
    (h : (openSlot access slot world).1 = .error error) : Tells (thrownError error.line) error := by
  unfold openSlot at h
  cases hread : access.read slot world with
  | error cause =>
    rw [hread] at h
    cases h
    exact tells_storage cause
  | ok text =>
    rw [hread] at h
    cases hload : load slot text with
    | error reason =>
      simp only [hload] at h
      cases h
      exact tells_of_load hload
    | ok document =>
      simp only [hload] at h
      cases h

/-- Writing a store fails for its storage alone, which is told by what is thrown. -/
theorem tells_of_persist {store : Store} {error : Error}
    (h : (store.persist access world).result = .error error) :
    Tells (thrownError error.line) error := by
  unfold persist at h
  cases hwrite : access.write store.slot store.text world with
  | error cause =>
    rw [hwrite] at h
    cases h
    exact tells_storage cause
  | ok next =>
    rw [hwrite] at h
    cases h

end Settings.Store
