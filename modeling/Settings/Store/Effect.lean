/-!
# Effects of a store

A store reads its slot when it is opened and writes it when it changes. Both are
told to a log: the number of entries after a successful opening, and the length
of the text before every write.
-/

namespace Settings.Store

/-- What a store does beyond its own memory. -/
inductive Effect where
  /-- The storage is asked for the text of a slot. -/
  | reads (slot : String)
  /-- The log is told how many entries a slot had. -/
  | loaded (count : Nat) (slot : String)
  /-- The log is told how many bytes are about to be written. -/
  | persisting (bytes : Nat) (slot : String)
  /-- The storage is asked to write the text of a slot. -/
  | writes (slot text : String)
deriving DecidableEq, Repr

/-- How much a log line matters. -/
inductive Level where
  /-- What is always logged. -/
  | debug
  /-- What is logged only in full detail. -/
  | trace
deriving DecidableEq, Repr

/-- The log line of an effect, if it has one. -/
def Effect.line? : Effect → Option (Level × String)
  | .loaded count slot =>
    some (.debug, "Loaded " ++ toString count ++ " configuration entries from `" ++ slot ++ "`")
  | .persisting bytes slot =>
    some (.trace, "Persisting " ++ toString bytes ++ " bytes to `" ++ slot ++ "`")
  | _ => none

/-- The log lines of effects, in order. -/
def logOf (effects : List Effect) : List (Level × String) :=
  effects.filterMap Effect.line?

end Settings.Store
