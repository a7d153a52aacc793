import Settings.Datum.Basic
import Settings.Json.Failure
import Settings.Schema.Mismatch
import Settings.Storage.Error

/-!
# Failures of a store

A store fails to open on a text that it cannot take for settings, fails to take
a value that has no stored form, fails to give a value that is not of the
wanted type, and passes on the failures of its storage. The reason behind a
failure is kept as its source. Writing the settings as text does not fail: every
document has a text, so there is no failure for one that cannot be encoded.
-/

namespace Settings.Store

/-- Why a store fails. -/
inductive Error where
  /-- The stored text is refused. -/
  | malformed (slot : String) (reason : Json.Refusal)
  /-- The stored text is no object. -/
  | notAnObject (slot : String)
  /-- A value has no stored form. -/
  | unstorable (key : String) (reason : Datum.Refusal)
  /-- A setting is not of the wanted type. -/
  | mismatch (key : String) (reason : Mismatch)
  /-- The storage fails. -/
  | storage (error : Storage.Error)

/-- The message of a failure, its source left out. -/
def Error.message : Error → String
  | .malformed slot _ => "stored configuration under `" ++ slot ++ "` is not valid JSON"
  | .notAnObject slot => "stored configuration under `" ++ slot ++ "` is not a JSON object"
  | .unstorable key _ => "value for `" ++ key ++ "` cannot be serialized to JSON"
  | .mismatch key _ => "value for `" ++ key ++ "` does not have the requested type"
  | .storage error => error.message

/-- The messages of the failures behind a failure, nearest first. A failure of
the storage is shown as the failure itself and is not repeated. -/
def Error.sources : Error → List String
  | .malformed _ reason => [reason.message]
  | .notAnObject _ => []
  | .unstorable _ reason => [reason.message]
  | .mismatch _ reason => [reason.message]
  | .storage _ => []

/-- A failure in one line: its message and each source after a colon. -/
def Error.line (error : Error) : String :=
  error.sources.foldl (fun text source => text ++ ": " ++ source) error.message

end Settings.Store
