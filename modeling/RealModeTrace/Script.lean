import RealModeTrace.Event.Codec
import RealModeTrace.Text.Blank
import RealModeTrace.Text.Lines

/-!
# Event scripts

A script has an event as JSON on each line. Blank lines and lines that begin with `#` say nothing,
blanks at the ends of a line do not count, and lines are numbered from one.
-/

namespace RealModeTrace.Script

/-- A line that is no event. -/
structure BadLine where
  number : Nat
  deriving DecidableEq, Repr

/-- The wording of the cause of a bad line. -/
def eventProblem : String := "the text is not an event"

/-- The wording of a bad line. -/
def BadLine.message (e : BadLine) : String :=
  "Invalid event on line " ++ Text.decimal e.number

/-- The line says nothing, given it is trimmed. -/
def isSilent (line : String) : Bool :=
  line == "" || line.startsWith "#"

/-- What one trimmed line with its number says. -/
def readLine (numbered : String × Nat) : Except BadLine (Option (Nat × Event)) :=
  if isSilent numbered.1 then .ok none
  else match Event.parse? numbered.1 with
    | some event => .ok (some (numbered.2, event))
    | none => .error ⟨numbered.2⟩

/-- The events of a script with their line numbers, or the first line that is no event. -/
def parse (s : String) : Except BadLine (List (Nat × Event)) := do
  let read ← (((Text.lines s).map Text.trim).zipIdx 1).mapM readLine
  return read.filterMap id

end RealModeTrace.Script
