import RealModeTrace.Proofs.Replay.Routing
import RealModeTrace.Proofs.Session.LineCounts

/-!
# What a replay reports

A replay that can close its log reports how many events there were, how many of them were for the
machine, the session before it was closed, and the lines of the log. The log has one line more than
the session had written if it is a file, and no line more if it is the console.

* `Delivery.taken_push_of_close`: a sink that can be closed took the line before;
* `Setup.lines_of_close`: the lines that closing a session adds;
* `Replay.ending`: what comes of closing the session of a replay; `Replay.ending_cases`: a report,
  or why there is none; `Replay.reportOf`: that report;
* `Replayed`: what the replay of a script comes to; `RoutesScripts`: what holds of events and of
  replays; `scripts_routed`: it holds of all of them.
-/

namespace RealModeTrace

/-! ### The last line -/

/-- A sink that can be closed after a short line has taken that line: one that it had refused would
wait, and be refused again. -/
theorem Delivery.taken_push_of_close {d : Delivery} {line : String}
    (hshort : line.utf8ByteSize < LogStream.capacity)
    (hclose : (d.push line).sink.close = none) : (d.push line).taken = d.taken + 1 := by
  have hnone : (d.sink.writeLine d.world line).2.2 = none := Sink.writeLine_of_close hshort hclose
  exact if_pos (Option.isNone_iff_eq_none.2 hnone)

/-- Closing fails for one reason only. -/
theorem Session.exists_cause_of_close {s : Session} {world : World} {error : TraceError}
    (hclose : (s.close world).1 = .error error) : ∃ cause, error = .io cause := by
  rw [close_fst _ _ 0] at hclose
  split at hclose
  · exact ⟨_, (Except.error.inj hclose).symm⟩
  · cases hclose

namespace Setup

variable (setup : Setup) (now : Duration) (world : World)

/-- The lines of a history that goes on with its first end. -/
theorem lines_shutdown {h : History} (hopen : ∀ entry ∈ h, entry.2.isShutdown = false)
    (clock : Readings) : setup.lines now world (h ++ [(clock, .shutdown)]) =
      setup.lines now world h ++ if setup.endsWithBanner world then [closingLine] else [] := by
  rw [lines, setup.trace_of_shutdown now world [] clock hopen, List.map_append]
  split_ifs <;> rfl

/-- The sink that is closed has been given the closing line, if there is to be one. -/
theorem closed_sink_eq {h : History} (hopen : ∀ entry ∈ h, entry.2.isShutdown = false)
    (hbanner : setup.endsWithBanner world = true) :
    ((setup.after now world h).emit (setup.worldAfter now world h)
      (setup.after now world h).closingRecords).1.writer.map (·.sink) =
      some (((setup.outlet world).pushAll (setup.lines now world h)).push closingLine).sink := by
  obtain ⟨henabled, hfile⟩ := (Bool.and_eq_true _ _).mp hbanner
  have hconsole : (setup.after now world h).onConsole? = some false := by
    rw [onConsole?_after, setup.acceptsAfter_of_open hopen, if_pos henabled]
    exact congrArg some ((Bool.not_eq_true' _).mp hfile)
  have hsome : (setup.after now world h).writer = none → [Record.banner .ended] = [] :=
    fun hnone => by
      rw [Session.onConsole?, hnone] at hconsole
      cases hconsole
  rw [Session.closingRecords_eq, if_pos hconsole]
  obtain ⟨-, -, hsink⟩ := (setup.delivered_after now world h).emit hsome
  have hwriter := Session.onConsole?_emit (setup.after now world h)
    (setup.worldAfter now world h) [.banner .ended]
  obtain ⟨w, hw, -⟩ := Option.map_eq_some_iff.1 (hwriter.trans hconsole)
  rw [hw, Option.map_some, hsink w hw]
  rfl

/-- Closing a session that has not been ended adds the closing banner to the lines written, if there
is to be one. -/
theorem lines_of_close {h : History} (hopen : ∀ entry ∈ h, entry.2.isShutdown = false)
    {count : Nat}
    (hclose : ((setup.after now world h).close (setup.worldAfter now world h)).1 = .ok count) :
    count = (setup.after now world h).linesWritten +
      if setup.endsWithBanner world then 1 else 0 := by
  have hwritten := setup.linesWritten_after now world (h ++ [(0, .shutdown)])
  rw [after_concat, setup.lines_shutdown now world hopen, Delivery.pushAll_append] at hwritten
  rw [Session.close_fst _ _ 0, hwritten] at hclose
  split at hclose
  · cases hclose
  · rename_i hnone
    rw [← Except.ok.inj hclose, linesWritten_after]
    split_ifs with hbanner
    · obtain ⟨w, hw, hsink⟩ :=
        Option.map_eq_some_iff.1 (setup.closed_sink_eq now world hopen hbanner)
      rw [hw, Option.bind_some, hsink] at hnone
      exact Delivery.taken_push_of_close (by rw [Record.closingLine_eq]; decide) hnone
    · rfl

/-! ### The log that is asked for -/

/-- The log is to be a file, and that file can be opened. Otherwise it is the console, asked for or
fallen back on. -/
def OpensLog (config : Config) (world : World) : Prop :=
  ∃ path loc files, config.logTarget = .file path ∧ world.files.create path = .ok (loc, files)

/-- Without a log file that can be opened the sink is the console. -/
theorem openSink_of_not_opensLog (hsink : setup.sink = none) (hconsole : setup.console = none)
    (hlog : ¬ OpensLog setup.config world) : (setup.openSink world).1 = .console := by
  rcases htarget : setup.config.logTarget with _ | path
  · simp [openSink, hsink, hconsole, htarget, Sink.openTarget, Sink.isConsole]
  · rcases hcreate : world.files.create path with cause | ⟨loc, files⟩
    · simp [openSink, hsink, hconsole, htarget, Sink.openTarget, hcreate, Sink.isConsole]
    · exact absurd ⟨path, loc, files, htarget, hcreate⟩ hlog

/-- An enabled session without sinks of its own ends with a banner if it has a log file. -/
theorem endsWithBanner_iff (henabled : setup.config.enabled = true) (hsink : setup.sink = none)
    (hconsole : setup.console = none) :
    setup.endsWithBanner world = true ↔ OpensLog setup.config world := by
  constructor
  · intro hbanner
    by_contra hlog
    rw [endsWithBanner, henabled, setup.openSink_of_not_opensLog world hsink hconsole hlog]
      at hbanner
    cases hbanner
  · rintro ⟨path, loc, files, htarget, hcreate⟩
    rw [endsWithBanner, henabled, setup.openSink_of_create world hsink htarget hcreate]
    rfl

end Setup

namespace Cli

/-! ### Replays that report -/

variable {world : World} {clock : Nat → Readings} {sessionId : String} {invocation : Invocation}
variable {options : ReplayOptions} {config : Config} {events : List Event}

/-- The calls of a script do not end the session. -/
theorem isShutdown_of_mem_tracerCalls {entry : Readings × Session.Call}
    (h : entry ∈ Script.tracerCalls clock events) : entry.2.isShutdown = false := by
  have hentry := Script.hasEntry_of_mem_tracerCalls h
  obtain ⟨readings, call⟩ := entry
  cases call with
  | shutdown => cases hentry
  | _ => rfl

/-- What a replay reads: options that are enabled, and a script that can be parsed. -/
theorem of_prepare (hread : prepare world.files invocation.config options = .ok (config, events)) :
    config.enabled = true ∧ ∃ text numbered, world.files.readText options.script = .ok text ∧
      Script.parse text = .ok numbered ∧ events = numbered.map Prod.snd := by
  unfold prepare at hread
  rcases hload : loadConfig world.files invocation.config with failure | c <;>
    rcases htext : world.files.readText options.script with cause | text <;>
    simp only [hload, htext, bind, Except.bind, Except.mapError] at hread
  case ok.ok =>
    rcases hparse : Script.parse text with line | numbered <;> simp only [hparse] at hread
    case ok =>
      obtain ⟨rfl, rfl⟩ := Prod.mk.inj (Except.ok.inj hread)
      exact ⟨rfl, text, numbered, rfl, hparse, rfl⟩
    case error => cases hread
  all_goals cases hread

variable (world clock sessionId invocation options config events)

namespace Replay

/-- The replay of the events of a script. -/
def ofScript : Replay :=
  (start config world ((clock 0).nth 0)).feedAll clock events

/-- What comes of closing the session of that replay, and the world after it. -/
def ending : Except TraceError Report × World :=
  (ofScript world clock config events).conclude ((clock (events.length + 1)).nth 0) events.length
    options.script sessionId

/-- The report of a replay, the log having some number of lines. -/
def reportOf (logLines : Nat) : Report where
  script := options.script
  sessionId
  events := events.length
  hostEvents := events.countP Event.isStaging
  session := (ofScript world clock config events).session.summary
    ((clock (events.length + 1)).nth 0)
  linesWritten := logLines

theorem linesWritten_reportOf (logLines : Nat) :
    (reportOf world clock sessionId options config events logLines).session.linesWritten =
      (Setup.after { config } ((clock 0).nth 0) world
        (Script.tracerCalls clock events)).linesWritten := by
  rw [← (follows config world clock events).session_eq]
  rfl

/-- A replay ends with closing its session. -/
theorem ending_eq : ending world clock sessionId options config events =
    (((Setup.after { config } ((clock 0).nth 0) world (Script.tracerCalls clock events)).close
        (Setup.worldAfter { config } ((clock 0).nth 0) world
          (Script.tracerCalls clock events))).1.map
        (reportOf world clock sessionId options config events),
      Setup.worldAfter { config } ((clock 0).nth 0) world
        (Script.tracerCalls clock events ++ [(clock (events.length + 1), .shutdown)])) := by
  obtain ⟨-, hsession, hworld, hstaged⟩ := follows config world clock events
  have hclose := Session.close_snd (ofScript world clock config events).session
    (ofScript world clock config events).world (clock (events.length + 1))
  rw [Setup.worldAfter_concat, ← hsession, ← hworld, ← ofScript, ← hclose]
  unfold ending conclude reportOf
  rw [← hstaged]
  rfl

/-- The log cannot be closed, or it is, and the report tells how many lines it has. -/
theorem ending_cases :
    (∃ cause, (ending world clock sessionId options config events).1 = .error (.io cause)) ∨
      ∃ logLines,
        ((Setup.after { config } ((clock 0).nth 0) world (Script.tracerCalls clock events)).close
          (Setup.worldAfter { config } ((clock 0).nth 0) world
            (Script.tracerCalls clock events))).1 = .ok logLines ∧
        (ending world clock sessionId options config events).1 =
          .ok (reportOf world clock sessionId options config events logLines) := by
  rw [ending_eq]
  rcases hclose : ((Setup.after { config } ((clock 0).nth 0) world
    (Script.tracerCalls clock events)).close (Setup.worldAfter { config } ((clock 0).nth 0) world
      (Script.tracerCalls clock events))).1 with error | logLines
  · obtain ⟨cause, rfl⟩ := Session.exists_cause_of_close hclose
    exact Or.inl ⟨cause, rfl⟩
  · exact Or.inr ⟨logLines, rfl, rfl⟩

end Replay

/-- What the replay of a script comes to, once its options and its events are read. -/
structure Replayed : Prop where
  /-- The events are those that the script is parsed into. -/
  parsed : ∃ text numbered, world.files.readText options.script = .ok text ∧
    Script.parse text = .ok numbered ∧ events = numbered.map Prod.snd
  /-- To make the calls of the script directly, each with the machine as it stands there, can be
  done in one way, and leaves the session of the replay and what it has written. -/
  direct : ∀ last lastWorld,
    (∃ records, (Setup.start { config } ((clock 0).nth 0) world).1.Calls
      (Setup.start { config } ((clock 0).nth 0) world).2.1 (Script.tracerCalls clock events) last
      lastWorld records) ↔
    last = (Replay.ofScript world clock config events).session ∧
      lastWorld = (Replay.ofScript world clock config events).world
  /-- The machine is as the script leaves it. -/
  machine_eq : (Replay.ofScript world clock config events).machine = Script.machineAfter events
  /-- After the last event the session is closed, and nothing else is written. -/
  closed : (replay world clock sessionId invocation options).world =
    ((Replay.ofScript world clock config events).session.close
      (Replay.ofScript world clock config events).world).2
  /-- What is printed is the report, if there is one. -/
  printed : (replay world clock sessionId invocation options).result =
    ((Replay.ending world clock sessionId options config events).1.map
      (·.text invocation.format invocation.quiet)).mapError .closeLog
  /-- The report tells of the script, of its events, and of the session before it was closed; the
  log has one line more if it is a file that was opened, and no line more if it is the console. -/
  reported : ∀ report, (Replay.ending world clock sessionId options config events).1 = .ok report →
    report = Replay.reportOf world clock sessionId options config events report.linesWritten ∧
      (Setup.OpensLog config world → report.linesWritten = report.session.linesWritten + 1) ∧
      (¬ Setup.OpensLog config world → report.linesWritten = report.session.linesWritten)
  /-- The events of the report, which are those of the script, are those for the machine and those
  dispatched, each of them a direct call. -/
  counted : ∀ report, (Replay.ending world clock sessionId options config events).1 = .ok report →
    report.events = report.hostEvents + (Script.tracerCalls clock events).length
  /-- Only closing the log can fail. -/
  failed : ∀ failure, (replay world clock sessionId invocation options).result = .error failure →
    ∃ cause, failure = .closeLog (.io cause)
  /-- A replay whose log is a stored file succeeds. -/
  succeeds_file : ∀ path loc files, config.logTarget = .file path →
    world.files.create path = .ok (loc, files) →
    (∀ device, world.files.node? loc ≠ some (.device device)) →
    ∃ report, (Replay.ending world clock sessionId options config events).1 = .ok report
  /-- A replay to the console succeeds. -/
  succeeds_console : ¬ Setup.OpensLog config world →
    ∃ report, (Replay.ending world clock sessionId options config events).1 = .ok report

variable {world config events}

theorem replay_eq (hread : prepare world.files invocation.config options = .ok (config, events)) :
    replay world clock sessionId invocation options =
      ⟨(Replay.ending world clock sessionId options config events).2,
        ((Replay.ending world clock sessionId options config events).1.map
          (·.text invocation.format invocation.quiet)).mapError .closeLog⟩ := by
  unfold replay
  rw [hread]
  dsimp only
  rw [Replay.finish, ← Replay.ofScript, ← Replay.ending]
  rcases Replay.ending world clock sessionId options config events with ⟨_ | _, after⟩ <;> rfl

/-- A replay whose log can be stored has a report. -/
theorem Replay.exists_report_of_neverFails (hsink : (Setup.outlet { config } world).NeverFails) :
    ∃ report, (ending world clock sessionId options config events).1 = .ok report := by
  rw [ending_eq, Setup.close_of_neverFails { config } ((clock 0).nth 0) world hsink _ 0]
  exact ⟨_, rfl⟩

/-- The lines of the report of a replay. -/
theorem Replay.report_of_ending (henabled : config.enabled = true) {report : Report}
    (hreport : (ending world clock sessionId options config events).1 = .ok report) :
    report = reportOf world clock sessionId options config events report.linesWritten ∧
      (Setup.OpensLog config world → report.linesWritten = report.session.linesWritten + 1) ∧
      (¬ Setup.OpensLog config world → report.linesWritten = report.session.linesWritten) := by
  obtain ⟨cause, hfailed⟩ | ⟨logLines, hclose, hending⟩ :=
    ending_cases world clock sessionId options config events
  · cases hfailed.symm.trans hreport
  obtain rfl := Except.ok.inj (hending.symm.trans hreport)
  have hopen : ∀ entry ∈ Script.tracerCalls clock events, entry.2.isShutdown = false :=
    fun _ => isShutdown_of_mem_tracerCalls
  have hlines := Setup.lines_of_close { config } ((clock 0).nth 0) world hopen hclose
  have hbanner := Setup.endsWithBanner_iff { config } world henabled rfl rfl
  rw [linesWritten_reportOf]
  refine ⟨rfl, fun hlog => ?_, fun hlog => ?_⟩
  · rwa [if_pos (hbanner.2 hlog)] at hlines
  · rwa [if_neg (hlog ∘ hbanner.1)] at hlines

theorem replayed_of_prepare
    (hread : prepare world.files invocation.config options = .ok (config, events)) :
    Replayed world clock sessionId invocation options config events := by
  obtain ⟨henabled, hparsed⟩ := of_prepare hread
  obtain ⟨hmachine, hsession, hworld, -⟩ := Replay.follows config world clock events
  have houtcome := replay_eq clock sessionId invocation options hread
  have hreport (report : Replay.Report)
      (h : (Replay.ending world clock sessionId options config events).1 = .ok report) :=
    Replay.report_of_ending clock sessionId options henabled h
  constructor
  case parsed => exact hparsed
  case direct =>
    intro last lastWorld
    rw [Replay.ofScript, hsession, hworld]
    constructor
    · rintro ⟨records, hcalls⟩
      have hrun := hcalls.run_eq
      exact ⟨(congrArg Prod.fst hrun).symm, (congrArg (·.2.1) hrun).symm⟩
    · rintro ⟨rfl, rfl⟩
      exact ⟨_, (Session.calls_iff fun _ => Script.hasEntry_of_mem_tracerCalls).2 rfl⟩
  case machine_eq => exact hmachine
  case closed =>
    rw [houtcome]
    rfl
  case printed => rw [houtcome]
  case reported => exact hreport
  case counted =>
    intro report h
    rw [(hreport report h).1]
    exact Replay.length_eq_add clock events
  case failed =>
    intro failure hfailure
    rw [houtcome] at hfailure
    dsimp only at hfailure
    obtain ⟨cause, hfailed⟩ | ⟨logLines, -, hending⟩ :=
      Replay.ending_cases world clock sessionId options config events
    · rw [hfailed] at hfailure
      exact ⟨cause, (Except.error.inj hfailure).symm⟩
    · rw [hending] at hfailure
      cases hfailure
  case succeeds_file =>
    intro path loc files htarget hcreate hdevice
    have hlog := Setup.logsTo_of_create { config } world henabled rfl htarget hcreate hdevice
    exact Replay.exists_report_of_neverFails clock sessionId options hlog.inFile.neverFails
  case succeeds_console =>
    intro hlog
    refine Replay.exists_report_of_neverFails clock sessionId options ?_
    rw [Setup.outlet, if_pos henabled, Setup.openSink_of_not_opensLog { config } world rfl rfl hlog]
    exact Delivery.neverFails_console _ 0

variable (world)

/-- What holds of the events of all scripts, and of replays. -/
structure RoutesScripts : Prop where
  routed : ∀ event : Event, event.Routed
  /-- Whatever events a replay is fed, read from a script or not. -/
  follows : ∀ config events, Replay.Follows config world clock
    ((Replay.start config world ((clock 0).nth 0)).feedAll clock events) events
  replayed : ∀ config events, prepare world.files invocation.config options = .ok (config, events) →
    Replayed world clock sessionId invocation options config events

/-- **Scripts are routed.** Each event changes the machine of a replay or goes to its entry point,
with its own fields: those that the machine takes are those that the session declines, and neither
is touched by what goes to the other. So the replay of a script has the session and the trace that
the calls of the tracer have when they are made directly, each against the machine as it stands at
that point of the script. Its report counts the events of the script, which are those for the
machine and those dispatched, and on success the log has one line more than the session had written
if it is a file that was opened, and no line more if it is the console. -/
theorem scripts_routed : RoutesScripts world clock sessionId invocation options where
  routed := Event.routed
  follows config events := Replay.follows config world clock events
  replayed _ _ hread := replayed_of_prepare clock sessionId invocation options hread

end Cli

end RealModeTrace
