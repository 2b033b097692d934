import RealModeTrace.Event.Basic
import RealModeTrace.Session.Basic

/-!
# What a session does with events

Each entry point below gives the session after an event and the records that the event makes, in
order. Writing those is left to `Session.emit`. An entry point never fails: it makes records or it
does not. The clock is read for each record with a time, and when tracing is switched on.

* The entry points: `instructionFetched` to `videoModeChanging`;
* `dispatch`: the entry point of an event; staging events have none and are declined.
-/

namespace RealModeTrace.Session

/-- The session traces a category of events. -/
def traces (s : Session) (category : Bool) : Bool :=
  s.isActive && category && s.writer.isSome

/-- The instruction at `cs:ip` is about to be executed. -/
def instructionFetched (s : Session) (now : Duration) (host : Host) (cs ip : UInt16) :
    Session × List Record :=
  if s.traces s.config.instructions then
    let (sampler, logged) := s.sampler.tick
    let s := { s with sampler }
    (s, if logged then [s.stamp now (.instruction cs ip (host.opcode cs ip) host.registers)]
      else [])
  else (s, [])

/-- A software interrupt is being invoked. -/
def interruptInvoked (s : Session) (now : Duration) (host : Host) (number : UInt8) :
    Session × List Record :=
  if s.traces s.config.interrupts && !Exclusion.excludes s.config.excludedInterrupts number then
    (s, [s.stamp now (.interrupt number host.registers)])
  else (s, [])

/-- A file is about to be created. -/
def fileCreated (s : Session) (now : Duration) (filename : String) (attributes : UInt16) :
    Session × List Record :=
  if s.traces s.config.fileIo then (s, [s.stamp now (.fileCreate filename attributes)])
  else (s, [])

/-- A file is about to be opened. -/
def fileOpened (s : Session) (now : Duration) (filename : String) (mode : UInt8) :
    Session × List Record :=
  if s.traces s.config.fileIo then (s, [s.stamp now (.fileOpen filename mode)])
  else (s, [])

/-- Creating or opening a file gave a handle, which is remembered in every state. -/
def handleOpened (s : Session) (handle : UInt16) (filename : String) : Session × List Record :=
  ({ s with files := s.files.record handle filename }, [])

/-- A handle is about to be closed, and is forgotten in every state. -/
def fileClosed (s : Session) (now : Duration) (handle : UInt16) : Session × List Record :=
  let (files, payload) := s.files.close handle
  ({ s with files }, if s.traces s.config.fileIo then [s.stamp now payload] else [])

/-- A read is about to be done. -/
def readIssued (s : Session) (now : Duration) (request : ReadRequest) : Session × List Record :=
  if s.traces s.config.fileIo then
    let (files, payload) := s.files.issueRead request
    ({ s with files }, [s.stamp now payload])
  else (s, [])

/-- A read is done. -/
def readCompleted (s : Session) (clock : Readings) (host : Host) (handle actual : UInt16)
    (buffer : UInt32) : Session × List Record :=
  if s.traces s.config.fileIo then
    let (files, payloads) := s.files.completeRead host handle actual buffer s.config.dumpLimit
    ({ s with files }, s.stampAll clock payloads)
  else (s, [])

/-- A program load starts tracing under these options. -/
def loadActivates (c : Config) (host : Host) : Bool :=
  c.waitForLoad && !(c.interactiveOnly && host.batchRunning)

/-- The session when tracing starts now. -/
def activateAt (s : Session) (now : Duration) : Session :=
  { s with
    activation := s.activation.activate
    writer := s.writer.map (·.resetEpoch now) }

/-- The session one program deeper. -/
def pushExec (s : Session) : Session :=
  { s with activation := s.activation.pushExec }

/-- A program is being loaded. The segment of its prefix is in SS. A load that starts tracing moves
the epoch first, and the clock may have gone on when its two lines are written. -/
def programExec (s : Session) (clock : Readings) (host : Host) (filename : String)
    (cmdline : Option String) : Session × List Record :=
  let load := Payload.exec filename (cmdline.getD "") host.registers.ss
  if !s.ready || s.writer.isNone then (s, [])
  else if s.isActive then (s.pushExec, [s.stamp (clock.nth 0) load])
  else if loadActivates s.config host then
    let s := s.activateAt (clock.nth 0)
    (s.pushExec, [s.stamp (clock.nth 1) load, s.stamp (clock.nth 2) .activated])
  else (s, [])

/-- A program exited. -/
def programTerminated (s : Session) (now : Duration) (exitCode : UInt8) : Session × List Record :=
  if s.writer.isSome then
    match s.activation.terminate with
    | (activation, some outcome) =>
      ({ s with activation },
        s.stamp now (.terminated exitCode outcome.remaining) ::
          if outcome.deactivated then [.banner .deactivated] else [])
    | (_, none) => (s, [])
  else (s, [])

/-- A program exited and stayed resident; the depth is as before. -/
def programStayedResident (s : Session) (now : Duration) (exitCode : UInt8) :
    Session × List Record :=
  if s.traces true then
    (s, [s.stamp now (.stayedResident exitCode s.activation.depth)])
  else (s, [])

/-- The video mode is about to change. -/
def videoModeChanging (s : Session) (now : Duration) (oldMode newMode : UInt16) :
    Session × List Record :=
  if s.traces s.config.videoModes then (s, [s.stamp now (.videoMode oldMode newMode)])
  else (s, [])

/-- The entry point of an event, if it has one. -/
def dispatch (s : Session) (clock : Readings) (host : Host) : Event → Option (Session × List Record)
  | .instructionFetched cs ip => some (s.instructionFetched (clock.nth 0) host cs ip)
  | .interruptInvoked number => some (s.interruptInvoked (clock.nth 0) host number)
  | .fileCreated filename attributes => some (s.fileCreated (clock.nth 0) filename attributes)
  | .fileOpened filename mode => some (s.fileOpened (clock.nth 0) filename mode)
  | .handleOpened handle filename => some (s.handleOpened handle filename)
  | .fileClosed handle => some (s.fileClosed (clock.nth 0) handle)
  | .readIssued handle requested segment offset =>
    some (s.readIssued (clock.nth 0) ⟨handle, requested, segment, offset⟩)
  | .readCompleted handle actual buffer => some (s.readCompleted clock host handle actual buffer)
  | .programExec filename cmdline => some (s.programExec clock host filename cmdline)
  | .programTerminated exitCode => some (s.programTerminated (clock.nth 0) exitCode)
  | .programStayedResident exitCode => some (s.programStayedResident (clock.nth 0) exitCode)
  | .videoModeChanging oldMode newMode => some (s.videoModeChanging (clock.nth 0) oldMode newMode)
  | .setRegisters _ | .poke _ _ _ | .setBatch _ => none

end RealModeTrace.Session
