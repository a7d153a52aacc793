/-!
# Failures of a storage

A storage may not be there at all, may not be accessible, or may refuse an
operation.
-/

namespace Settings.Storage

/-- Why a storage fails. -/
inductive Error where
  /-- There is no window whose storage could be used. -/
  | noWindow
  /-- The window does not give its storage away. -/
  | unavailable (reason : String)
  /-- The storage refuses to read or to write. -/
  | refused (reason : String)
deriving DecidableEq, Repr

/-- The message of a failure. -/
def Error.message : Error → String
  | .noWindow => "no window object"
  | .unavailable reason => "localStorage unavailable: " ++ reason
  | .refused reason => "storage operation failed: " ++ reason

end Settings.Storage
