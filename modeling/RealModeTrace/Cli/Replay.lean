import RealModeTrace.Cli.Arguments
import RealModeTrace.Cli.Outcome
import RealModeTrace.Json.Printer

/-!
# The replay command

A replay reads the configuration and the whole script before it opens the log. Then each event of
the script either changes the machine of the replay or goes to a session.

* `prepare`: what a replay reads; nothing is written yet;
* `Replay.start`, `Replay.feed`, `Replay.finish`: the session of the replay, event by event, each at
  readings of the clock;
* `Replay.conclude`: the report, once the session is closed;
* `replay`: all of that, `clock` giving the readings at the start, at each event and at the end.
-/

namespace RealModeTrace.Cli

/-- The configuration of a replay: that of the file, as far as the options do not override it. -/
def replayConfig (options : ReplayOptions) (c : Config) : Config :=
  { c with
    enabled := true
    logfile := options.log.getD c.logfile
    waitForLoad := c.waitForLoad && !options.eager
    interactiveOnly := c.interactiveOnly || options.interactiveOnly }

/-- The configuration in a file, or the defaults without one. -/
def loadConfig (files : FileTree) : Option String → Except Failure Config
  | some path => (Config.load files path).mapError (.loadConfig path)
  | none => .ok {}

/-- What a replay reads: its configuration and the events of its script. -/
def prepare (files : FileTree) (configPath : Option String) (options : ReplayOptions) :
    Except Failure (Config × List Event) := do
  let c ← loadConfig files configPath
  let text ← (files.readText options.script).mapError (.readScript options.script)
  let events ← (Script.parse text).mapError (.parseScript options.script)
  return (replayConfig options c, events.map Prod.snd)

/-- A replay under way. -/
structure Replay where
  machine : FlatMachine
  session : Session
  world : World
  /-- The events that went to the machine. -/
  staged : Nat := 0

namespace Replay

/-- A replay before its first event. -/
def start (config : Config) (world : World) (now : Duration) : Replay :=
  let (session, world, _) := Setup.start { config } now world
  { machine := .new, session, world }

/-- A replay after one more event. -/
def feed (r : Replay) (clock : Readings) (event : Event) : Replay :=
  match event.applyTo r.machine with
  | some machine => { r with machine, staged := r.staged + 1 }
  | none =>
    let (session, world, _) := r.session.step r.world clock (.event r.machine.host event)
    { r with session, world }

/-- A replay after events, `clock n` being the readings at the `n`th, counted from one. -/
def feedAll (r : Replay) (clock : Nat → Readings) (events : List Event) : Replay :=
  events.zipIdx.foldl (fun r numbered => r.feed (clock (numbered.2 + 1)) numbered.1) r

/-- What is told about a replay. -/
structure Report where
  script : String
  sessionId : String
  events : Nat
  hostEvents : Nat
  /-- The session after the last event, before it is closed. -/
  session : Session.Summary
  /-- The lines of the log, the closing banner included. -/
  linesWritten : Nat

/-- A truth value in words. -/
def yesNo (b : Bool) : String :=
  if b then "true" else "false"

/-- The report for a reader. -/
def Report.human (r : Report) : String :=
  "Replayed " ++ Text.decimal r.events ++ " events from " ++ r.script ++ "\n" ++
    "  Host events: " ++ Text.decimal r.hostEvents ++ "\n" ++
    "  Trace lines: " ++ Text.decimal r.linesWritten ++ "\n" ++
    "  Still active: " ++ yesNo r.session.active ++ "\n" ++
    "  Final depth: " ++ Text.signed r.session.depth ++ "\n" ++
    match r.session.fallback with
    | some reason => "  Log file not used: " ++ reason ++ "\n"
    | none => ""

/-- A summary as JSON. -/
def summaryJson (sessionId : String) (s : Session.Summary) : Json :=
  .object [("session_id", .string sessionId), ("ready", .bool s.ready), ("active", .bool s.active),
    ("depth", .integer s.depth), ("elapsed_ms", .nat s.elapsedMs.toNat),
    ("lines_written", .nat s.linesWritten), ("write_errors", .nat s.writeErrors),
    ("sink_fallback", .ofOption .string s.fallback)]

/-- The report as JSON. -/
def Report.toJson (r : Report) : Json :=
  .object [("script", .string r.script), ("events", .nat r.events),
    ("host_events", .nat r.hostEvents), ("session", summaryJson r.sessionId r.session),
    ("lines_written", .nat r.linesWritten)]

/-- The report as it is printed. -/
def Report.text (r : Report) (format : Format) (quiet : Bool) : String :=
  match format with
  | .human => if quiet then "" else r.human
  | .json => r.toJson.pretty ++ "\n"
  | .jsonCompact => r.toJson.compact ++ "\n"

/-- Close the session of a replay of so many events, and report on it. -/
def conclude (r : Replay) (now : Duration) (events : Nat) (script sessionId : String) :
    Except TraceError Report × World :=
  let session := r.session.summary now
  let (closed, world) := r.session.close r.world
  (closed.map fun linesWritten => ⟨script, sessionId, events, r.staged, session, linesWritten⟩,
    world)

/-- Conclude a replay and print its report. -/
def finish (r : Replay) (now : Duration) (events : Nat) (invocation : Invocation)
    (script sessionId : String) : Outcome :=
  match r.conclude now events script sessionId with
  | (.error error, world) => ⟨world, .error (.closeLog error)⟩
  | (.ok report, world) => ⟨world, .ok (report.text invocation.format invocation.quiet)⟩

end Replay

/-- Replay a script. The clock is read at the start, then at each event, and at the end. -/
def replay (world : World) (clock : Nat → Readings) (sessionId : String) (invocation : Invocation)
    (options : ReplayOptions) : Outcome :=
  match prepare world.files invocation.config options with
  | .error failure => ⟨world, .error failure⟩
  | .ok (config, events) =>
    let r := (Replay.start config world ((clock 0).nth 0)).feedAll clock events
    r.finish ((clock (events.length + 1)).nth 0) events.length invocation options.script sessionId

end RealModeTrace.Cli
