import RealModeTrace.Cli.Inspect
import RealModeTrace.Cli.Replay

/-!
# Executing a command line

The two commands behind one function of the world, the clock and the invocation.
-/

namespace RealModeTrace.Cli

/-- Execute a command. -/
def execute (world : World) (clock : Nat → Readings) (sessionId : String)
    (invocation : Invocation) : Outcome :=
  match invocation.command with
  | .replay options => replay world clock sessionId invocation options
  | .config defaults => inspect world invocation defaults

end RealModeTrace.Cli
