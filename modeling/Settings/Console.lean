/-!
# The console logger

The program installs one logger when it starts. Starting once more finds it
installed and does nothing: no line is logged and the level stays as it is.
-/

namespace Settings

/-- How much is logged, from least to most. -/
inductive Verbosity where
  /-- Nothing. -/
  | off
  /-- Messages for debugging. -/
  | debug
  /-- Everything. -/
  | trace
deriving DecidableEq, Repr

/-- A level as reports show it. -/
def Verbosity.name : Verbosity → String
  | .off => "OFF"
  | .debug => "DEBUG"
  | .trace => "TRACE"

/-- The logger of the program. -/
structure Console where
  /-- Whether the logger is installed. -/
  installed : Bool
  /-- How much is logged. -/
  level : Verbosity
deriving DecidableEq, Repr

namespace Console

/-- Before the program starts nothing is logged. -/
def initial : Console := ⟨false, .off⟩

/-- Start the program: install the logger if it is not, and say so. -/
def start (console : Console) : Console × List String :=
  if console.installed then (console, [])
  else (⟨true, .debug⟩, ["Console logger installed"])

end Console

end Settings
