import RealModeTrace.Config.Section
import RealModeTrace.Session.Events

/-!
# Runs of a session

* `update`: replace the options; the sink stays, and the activation follows from the new options;
* `finish`, `shutdown`, `close`: write the closing banner and close the sink;
* `Call`, `step`, `run`: a session under a sequence of calls, each at readings of the clock, and
  the records that it makes.
-/

namespace RealModeTrace

/-- Why a session could not be started or closed. -/
inductive TraceError
  | config (error : ConfigError)
  /-- The last lines could not be stored. -/
  | io (cause : FileError)
  deriving DecidableEq, Repr

namespace TraceError

/-- The wording of a trace error. -/
def message : TraceError → String
  | .config error => "Configuration error: " ++ error.message
  | .io cause => "Trace log I/O error: " ++ cause.message

/-- The wording of the error and of its causes, outermost first. -/
def chain (e : TraceError) : List String :=
  e.message :: match e with
    | .config error => error.chain
    | .io cause => [cause.message]

end TraceError

namespace Session

/-- Replace the options. -/
def update (s : Session) (now : Duration) (c : Config) : Session :=
  let c := c.sanitized
  let s := { s with config := c, sampler := s.sampler.ensureStride c.stride }
  if !s.ready then s
  else if c.eager then
    { s with
      activation := s.activation.activate
      writer := if s.isActive then s.writer else s.writer.map (·.ensureEpoch now) }
  else { s with activation := s.activation.deactivate }

/-- The records of the end of a session: a closing banner, but not on the console. -/
def closingRecords (s : Session) : List Record :=
  match s.writer with
  | some w => if w.sink.isConsole then [] else [.banner .ended]
  | none => []

/-- The result of the end of a session: the session, the world, the records, and why the last lines
could not be stored. -/
structure Finish where
  session : Session
  world : World
  records : List Record
  error : Option FileError

/-- End the session, if that has not been done: forget the files, write the closing banner and close
the sink. -/
def finish (s : Session) (world : World) : Finish :=
  let records := s.closingRecords
  let s := { s with ready := false, activation := s.activation.deactivate, files := .empty }
  let (s, world) := s.emit world records
  match s.writer with
  | some w =>
    ⟨{ s with writer := none, finalLines := w.linesWritten }, world, records, w.sink.close⟩
  | none => ⟨s, world, records, none⟩

/-- End the session and give the number of lines written, or why the last ones could not be
stored. -/
def close (s : Session) (world : World) : Except TraceError Nat × World :=
  let f := s.finish world
  (match f.error with
    | some cause => .error (.io cause)
    | none => .ok f.session.finalLines, f.world)

/-- A call of a session. -/
inductive Call
  | event (host : Host) (event : Event)
  | update (config : Config)
  | shutdown

/-- The session after a call at readings of the clock, the world, and the records the call makes. -/
def step (s : Session) (world : World) (clock : Readings) : Call → Session × World × List Record
  | .event host event =>
    match s.dispatch clock host event with
    | some (s, records) =>
      let (s, world) := s.emit world records
      (s, world, records)
    | none => (s, world, [])
  | .update config => (s.update (clock.nth 0) config, world, [])
  | .shutdown =>
    let f := s.finish world
    (f.session, f.world, f.records)

/-- The session after a sequence of calls, the world, and all records in order. -/
def run (s : Session) (world : World) : List (Readings × Call) → Session × World × List Record
  | [] => (s, world, [])
  | (clock, call) :: calls =>
    let (s, world, records) := s.step world clock call
    let (s, world, more) := s.run world calls
    (s, world, records ++ more)

@[simp] theorem run_nil (s : Session) (world : World) : s.run world [] = (s, world, []) := rfl

/-- Start a session from a configuration file. -/
def ofConfigFile (world : World) (path : String) (now : Duration) :
    Except TraceError (Session × World × List Record) := do
  let config ← (Config.load world.files path).mapError .config
  return Setup.start { config } now world

end Session

end RealModeTrace
