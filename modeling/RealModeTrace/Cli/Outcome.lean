import RealModeTrace.Config.Section
import RealModeTrace.Script
import RealModeTrace.Session.Run

/-!
# Outcomes of commands

A command leaves a world, in which the trace lines on the console are, and a report or a failure.
-/

namespace RealModeTrace.Cli

/-- Why a command failed. -/
inductive Failure
  | loadConfig (path : String) (error : ConfigError)
  | readScript (path : String) (cause : FileError)
  | parseScript (path : String) (line : Script.BadLine)
  | closeLog (error : TraceError)
  | noConfigFile
  | invalidConfig (path : String) (error : ConfigError)
  deriving DecidableEq, Repr

/-- The wording of a failure and of its causes, outermost first. -/
def Failure.chain : Failure → List String
  | .loadConfig path error => ("Failed to load configuration: " ++ path) :: error.chain
  | .readScript path cause => ["Failed to read script: " ++ path, cause.message]
  | .parseScript path line =>
    ["Failed to parse script: " ++ path, line.message, Script.eventProblem]
  | .closeLog error => "Failed to close trace log" :: error.chain
  | .noConfigFile => ["No configuration file given (use --config FILE or --defaults)"]
  | .invalidConfig path error => ("Invalid configuration: " ++ path) :: error.chain

/-- What a command leaves. -/
structure Outcome where
  world : World
  result : Except Failure String

namespace Outcome

/-- The exit code. -/
def exitCode (o : Outcome) : UInt32 :=
  match o.result with
  | .ok _ => 0
  | .error _ => 1

/-- The standard output: the trace lines on the console, and the report. -/
def output (o : Outcome) : String :=
  o.world.consoleText ++ match o.result with
    | .ok report => report
    | .error _ => ""

/-- The line about a failure. -/
def failureLine (chain : List String) : String :=
  "Error: " ++ ": ".intercalate chain ++ "\n"

/-- The error output, which a quiet command leaves empty. -/
def errorOutput (o : Outcome) (quiet : Bool) : String :=
  match o.result with
  | .ok _ => ""
  | .error failure => if quiet then "" else failureLine failure.chain

end Outcome

end RealModeTrace.Cli
