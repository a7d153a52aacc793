import Settings.Storage.World

/-!
# The storage of the window

The browser offers one storage through its window. There may be no window, the
window may have no storage to offer, and asking for it may throw.
-/

namespace Settings.Storage

/-- What the window is. -/
inductive Window where
  /-- There is none. -/
  | missing
  /-- It has no storage. -/
  | bare
  /-- Asking for its storage throws. -/
  | throwing (thrown : Script.Value)
  /-- Its storage is a page. -/
  | offering (handle : Handle)

/-- The storage of the window, or why there is none. -/
def Window.handle : Window → Except Error Handle
  | .missing => .error .noWindow
  | .bare => .error (.unavailable "not provided by this context")
  | .throwing thrown => .error (.unavailable thrown.describe)
  | .offering handle => .ok handle

end Settings.Storage
