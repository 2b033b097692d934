import RealModeTrace.Activation
import RealModeTrace.Sampler
import RealModeTrace.Trace.FileLog
import RealModeTrace.Trace.Writer

/-!
# Trace sessions

A session belongs to one run of an emulator. It is told about each event and decides which lines the
trace gets.

* `Setup.start`: a session from a configuration; a session that is not enabled opens no sink;
* `Session.emit`: the records of an operation go to the sink, if there is one;
* `Session.stamp`, `Session.stampAll`: the records of what was observed, with the time elapsed;
* `Session.summary`: the state of a session for a report.
-/

namespace RealModeTrace

/-- The state of a session. -/
structure Session where
  config : Config
  /-- A sink is open and events are accepted. -/
  ready : Bool := false
  activation : Activation := .off
  writer : Option Writer := none
  sampler : Sampler
  files : FileLog := .empty
  /-- Why the console is used instead of the log file. -/
  fallback : Option OpenError := none
  /-- The lines written before the sink was closed. -/
  finalLines : Nat := 0

namespace Session

/-- A session without a sink, under sanitized options. -/
def ofConfig (c : Config) : Session where
  config := c.sanitized
  sampler := .ofStride c.sanitized.stride

/-- Trace lines are being produced. -/
def isActive (s : Session) : Bool :=
  s.activation.active

/-- Milliseconds since the epoch; zero without a sink. -/
def elapsed (s : Session) (now : Duration) : UInt64 :=
  match s.writer with
  | some w => w.elapsed now
  | none => 0

/-- The lines written so far. -/
def linesWritten (s : Session) : Nat :=
  match s.writer with
  | some w => w.linesWritten
  | none => s.finalLines

/-- The lines that the sink refused. -/
def writeErrors (s : Session) : Nat :=
  match s.writer with
  | some w => w.writeErrors
  | none => 0

/-- Write the lines of records. -/
def emit (s : Session) (world : World) (records : List Record) : Session × World :=
  match s.writer with
  | some w =>
    let (w, world) := w.emitAll world records
    ({ s with writer := some w }, world)
  | none => (s, world)

/-- The record of what was observed now. -/
def stamp (s : Session) (now : Duration) (payload : Payload) : Record :=
  .timed (s.elapsed now) payload

/-- The records of what was observed, one after the other, each at a reading of its own. -/
def stampAll (s : Session) (clock : Readings) (payloads : List Payload) : List Record :=
  payloads.mapIdx fun n => s.stamp (clock.nth n)

/-- The state of a session for a report. -/
structure Summary where
  ready : Bool
  active : Bool
  depth : Int
  elapsedMs : UInt64
  linesWritten : Nat
  writeErrors : Nat
  fallback : Option String
  deriving DecidableEq, Repr

/-- The state of the session at a clock reading. -/
def summary (s : Session) (now : Duration) : Summary where
  ready := s.ready
  active := s.isActive
  depth := s.activation.depth
  elapsedMs := s.elapsed now
  linesWritten := s.linesWritten
  writeErrors := s.writeErrors
  fallback := s.fallback.map OpenError.message

end Session

/-- How a session is started: its options, a sink to use instead of the configured one, and a sink
to use instead of the console. -/
structure Setup where
  config : Config := {}
  sink : Option Sink := none
  console : Option Sink := none

namespace Setup

/-- The sink of an enabled session. -/
def openSink (setup : Setup) (world : World) : Sink × World × Option OpenError :=
  match setup.sink with
  | some sink => (sink, world, none)
  | none =>
    let (sink, world, fallback) := Sink.openTarget setup.config.logTarget world
    (if sink.isConsole then setup.console.getD sink else sink, world, fallback)

/-- The first records of an enabled session. -/
def openingRecords (eager : Bool) (fallback : Option OpenError) : List Record :=
  (fallback.map fun error => .banner (.fallback error)).toList ++
    (if eager then [.banner .started] else [])

/-- Start a session at a clock reading, with the records it begins with. -/
def start (setup : Setup) (now : Duration) (world : World) : Session × World × List Record :=
  let s := Session.ofConfig setup.config
  if s.config.enabled then
    let (sink, world, fallback) := setup.openSink world
    let eager := s.config.eager
    let w := Writer.ofSink sink
    let s := { s with
      ready := true
      activation := if eager then s.activation.activate else s.activation
      writer := some (if eager then w.resetEpoch now else w)
      fallback }
    let records := openingRecords eager fallback
    let (s, world) := s.emit world records
    (s, world, records)
  else (s, world, [])

end Setup

end RealModeTrace
