import RealModeTrace.Text.Blank

/-!
# Log targets

Trace lines go to the console or to a file. The console is named `stdout` or by nothing at all.
-/

namespace RealModeTrace

/-- The name of the console. -/
def consoleName : String := "stdout"

/-- Where trace lines go. -/
inductive LogTarget
  | console
  | file (path : String)
  deriving DecidableEq, Repr

namespace LogTarget

/-- The target that an option value names, blanks around it aside. -/
def ofText (value : String) : LogTarget :=
  let name := Text.trim value
  if name = "" ∨ name = consoleName then .console else .file name

/-- The target is the console. -/
def isConsole : LogTarget → Bool
  | .console => true
  | .file _ => false

/-- The target for display. -/
def display : LogTarget → String
  | .console => consoleName
  | .file path => path

end LogTarget

end RealModeTrace
