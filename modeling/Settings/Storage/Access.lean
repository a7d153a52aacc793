import Settings.Storage.Error

/-!
# Access to a storage

A store needs two things of a storage: to read the text under a key and to
write one. Access gives both for a storage that is part of some world. A failed
write gives no new world, so the old one stands.
-/

namespace Settings.Storage

/-- Access to one storage in a world. -/
structure Access (σ : Type) where
  /-- The text under a key, if there is one. -/
  read : String → σ → Except Error (Option String)
  /-- The world after a text is written under a key. -/
  write : String → String → σ → Except Error σ

end Settings.Storage
