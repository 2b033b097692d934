import RealModeTrace.Proofs.Session.SameCourse

/-!
# The console, and sinks in its place

The lines of a session go to the console if its options say so, and also if its log file cannot be
opened. Another sink may be given in place of the console. None of this changes what a session does,
but three things are written about it: a warning that the log file could not be opened, which is the
first line, and the closing banner, which every sink but the console gets.

* `Config.OnConsole`: the lines go to the console, or to the sink in its place, and why;
* `Setup.routed`: a session with a sink in place of the console, or without one;
  `Config.OnConsole.outlet_eq`: where its lines go;
* `Session.ShowsSame`: two sessions show the same from outside;
* `Setup.fallback_loses_nothing`: with a log file that cannot be opened, and with the console as the
  log, a session does the same but for the warning;
* `Setup.console_overridden`: with a sink in place of the console, and without one, a session does
  the same but for the closing banner;
* `Setup.override_gets_closing_banner`: a session that shows the difference.
-/

namespace RealModeTrace

/-! ### Lines for the console -/

/-- The lines under these options go to the console: the options name it, or their log file cannot
be opened, for the reason given. -/
inductive Config.OnConsole (c : Config) (world : World) : Option OpenError → Prop
  | named (htarget : c.logTarget = .console) : OnConsole c world none
  | refused {path : String} {cause : FileError} (htarget : c.logTarget = .file path)
      (hcreate : world.files.create path = .error cause) : OnConsole c world (some ⟨path, cause⟩)

namespace Session

/-- Two sessions show the same from outside, but for their lines, for the name that their options
give the log, and for why it is not used. -/
structure ShowsSame (s t : Session) : Prop where
  options : ∃ name, t.config = s.config.withLogfile name
  ready_eq : t.ready = s.ready
  isActive_eq : t.isActive = s.isActive
  depth_eq : t.activation.depth = s.activation.depth
  elapsed_eq : ∀ now, t.elapsed now = s.elapsed now
  handles_eq : t.files.handles = s.files.handles
  pending_eq : t.files.pending = s.files.pending

theorem SameCourse.showsSame {s t : Session} (h : s.SameCourse t) : s.ShowsSame t where
  options := h.options
  ready_eq := h.ready_eq
  isActive_eq := h.isActive_eq
  depth_eq := congrArg Activation.depth h.activation_eq
  elapsed_eq := h.elapsed_eq
  handles_eq := congrArg FileLog.handles h.files_eq
  pending_eq := congrArg FileLog.pending h.files_eq

/-- What sessions tell about themselves on the same course, with their own lines, and with why the
console is used. -/
theorem SameCourse.summary_eq {s t : Session} (h : s.SameCourse t) (now : Duration) :
    t.summary now = { s.summary now with
      linesWritten := t.linesWritten
      writeErrors := t.writeErrors
      fallback := t.fallback.map OpenError.message } := by
  unfold summary
  rw [h.ready_eq, h.isActive_eq, h.activation_eq, h.elapsed_eq]

end Session

namespace Setup

/-- Sessions start on the same course if their options differ in the name of the log alone. -/
theorem start_sameCourse {setup setup' : Setup} (name : String)
    (hconfig : setup'.config = setup.config.withLogfile name) (now : Duration)
    (world world' : World) :
    (setup.start now world).1.SameCourse (setup'.start now world').1 where
  options := ⟨name, by rw [start_config, start_config, hconfig]; rfl⟩
  ready_eq := by rw [start_ready, start_ready, hconfig]; rfl
  activation_eq := by rw [start_activation, start_activation, hconfig]; rfl
  sampler_eq := by rw [start_sampler, start_sampler, hconfig]; rfl
  files_eq := by rw [start_files, start_files]
  epoch_eq := by rw [start_epoch, start_epoch, hconfig]; rfl
  isSome_eq := by rw [start_isSome, start_isSome, hconfig]; rfl

/-! ### A sink in place of the console -/

/-- A session under these options, with a sink in place of the console if one is given. -/
def routed (c : Config) (sink? : Option Sink) : Setup where
  config := c
  console := sink?

end Setup

namespace Config.OnConsole

open Setup

variable {c : Config} {world : World} {reason : Option OpenError}

theorem openSink_eq (h : c.OnConsole world reason) (sink? : Option Sink) :
    (routed c sink?).openSink world = (sink?.getD .console, world, reason) := by
  cases h with
  | named htarget =>
    simp only [openSink, routed, htarget, Sink.openTarget]
    rfl
  | refused htarget hcreate =>
    simp only [openSink, routed, htarget, Sink.openTarget, hcreate]
    rfl

/-- The lines go to the sink in place of the console. -/
theorem outlet_eq (h : c.OnConsole world reason) (henabled : c.enabled = true)
    (sink? : Option Sink) :
    (routed c sink?).outlet world = ⟨sink?.getD .console, world, 0⟩ := by
  have henabled' : (routed c sink?).config.enabled = true := henabled
  rw [outlet, if_pos henabled', h.openSink_eq]

theorem endsWithBanner_eq (h : c.OnConsole world reason) (henabled : c.enabled = true)
    (sink? : Option Sink) :
    (routed c sink?).endsWithBanner world = !(sink?.getD .console).isConsole := by
  have henabled' : (routed c sink?).config.enabled = true := henabled
  rw [endsWithBanner, henabled', h.openSink_eq, Bool.true_and]

theorem start_records_eq (h : c.OnConsole world reason) (henabled : c.enabled = true)
    (now : Duration) (sink? : Option Sink) :
    ((routed c sink?).start now world).2.2 = openingRecords c.eager reason := by
  have henabled' : (routed c sink?).config.enabled = true := henabled
  rw [start_records, if_pos henabled', h.openSink_eq]
  rfl

/-- The world holds the lines that the sink took. -/
theorem worldAfter_eq (h : c.OnConsole world reason) (henabled : c.enabled = true)
    (sink? : Option Sink) (now : Duration) (k : History) :
    (routed c sink?).worldAfter now world k =
      ((⟨sink?.getD .console, world, 0⟩ : Delivery).pushAll
        ((routed c sink?).lines now world k)).world := by
  rw [((routed c sink?).delivered_after now world k).world_eq, h.outlet_eq henabled]

/-- A sink that never fails takes every line. -/
theorem linesWritten_eq (h : c.OnConsole world reason) (henabled : c.enabled = true)
    (sink? : Option Sink) (hsink : (⟨sink?.getD .console, world, 0⟩ : Delivery).NeverFails)
    (now : Duration) (k : History) :
    ((routed c sink?).after now world k).linesWritten =
      ((routed c sink?).lines now world k).length := by
  rw [linesWritten_after, h.outlet_eq henabled, hsink.taken_eq, Nat.zero_add]

/-- It refuses none. -/
theorem writeErrors_eq (h : c.OnConsole world reason) (henabled : c.enabled = true)
    (sink? : Option Sink) (hsink : (⟨sink?.getD .console, world, 0⟩ : Delivery).NeverFails)
    (now : Duration) (k : History) : ((routed c sink?).after now world k).writeErrors = 0 := by
  refine writeErrors_of_neverFails _ now world ?_ k
  rwa [h.outlet_eq henabled]

theorem close_eq (h : c.OnConsole world reason) (henabled : c.enabled = true)
    (sink? : Option Sink) (hsink : (⟨sink?.getD .console, world, 0⟩ : Delivery).NeverFails)
    (now : Duration) (k : History) (clock : Readings) :
    (((routed c sink?).after now world k).close ((routed c sink?).worldAfter now world k)).1 =
      .ok ((routed c sink?).lines now world (k ++ [(clock, .shutdown)])).length := by
  have hoff : ((routed c sink?).outlet world).NeverFails := by
    rw [h.outlet_eq henabled]
    exact hsink
  rw [close_of_neverFails _ _ _ hoff k clock, h.linesWritten_eq henabled sink? hsink]

/-- Why the console is used does not depend on what is in its place. -/
theorem fallback_eq (h : c.OnConsole world reason) (henabled : c.enabled = true)
    (sink? : Option Sink) (now : Duration) (k : History) :
    ((routed c sink?).after now world k).fallback = reason := by
  rw [after_fallback, h.openSink_eq]
  exact if_pos henabled

end Config.OnConsole

namespace Setup

variable {c : Config} {world : World}

/-! ### A log file that cannot be opened -/

/-- What a session with a sink in place of the console has in common with the session on the
console. -/
structure Overrides (c : Config) (sink : Sink) (now : Duration) (world : World) (h : History) :
    Prop where
  /-- The lines are those of the other session, and at the end the closing banner, if the sink is
  not the console itself. -/
  lines_eq : (routed c sink).lines now world h = (routed c none).lines now world h ++
    if !sink.isConsole && h.any (·.2.isShutdown) then [closingLine] else []
  no_closing : closingLine ∉ (routed c none).lines now world h
  /-- The sink gets its lines, and nothing else is written. -/
  received : (routed c sink).worldAfter now world h =
    ((⟨sink, world, 0⟩ : Delivery).pushAll ((routed c sink).lines now world h)).world
  /-- The lines of the other session are on the console. -/
  printed : (routed c none).worldAfter now world h = { world with
    console := world.console ++ ((routed c none).lines now world h).toArray }
  shows_same : ((routed c none).after now world h).ShowsSame ((routed c sink).after now world h)
  /-- The options are the same, the name of the log among them, and so is why it is not used. -/
  config_eq : ((routed c sink).after now world h).config =
    ((routed c none).after now world h).config
  fallback_eq : ((routed c sink).after now world h).fallback =
    ((routed c none).after now world h).fallback
  /-- A sink that takes every line has taken those of the other session, and the closing banner at
  the end, -/
  written : (⟨sink, world, 0⟩ : Delivery).NeverFails →
    ((routed c sink).after now world h).linesWritten =
      ((routed c none).after now world h).linesWritten +
        if !sink.isConsole && h.any (·.2.isShutdown) then 1 else 0
  /-- also when the session is closed. -/
  closed : (⟨sink, world, 0⟩ : Delivery).NeverFails → ∃ count,
    (((routed c none).after now world h).close ((routed c none).worldAfter now world h)).1 =
      .ok count ∧
    (((routed c sink).after now world h).close ((routed c sink).worldAfter now world h)).1 =
      .ok (count + if sink.isConsole then 0 else 1)
  /-- Then nothing else that the sessions tell about themselves is different. -/
  summary_eq : (⟨sink, world, 0⟩ : Delivery).NeverFails → ∀ reading : Duration,
    ((routed c sink).after now world h).summary reading =
      { ((routed c none).after now world h).summary reading with
        linesWritten := ((routed c none).after now world h).linesWritten +
          if !sink.isConsole && h.any (·.2.isShutdown) then 1 else 0 }

/-- Where the console is used, a session sets off in the same way whatever sink is in its place. -/
theorem setsOff_of_onConsole {reason : Option OpenError} (henabled : c.enabled = true)
    (honConsole : c.OnConsole world reason) (sink? sink?' : Option Sink) (now : Duration) :
    (routed c sink?).SetsOff (routed c sink?') now world world [] where
  start := start_sameCourse c.logfile rfl now world world
  records_eq := by
    rw [honConsole.start_records_eq henabled, honConsole.start_records_eq henabled]
    rfl

theorem lines_of_onConsole {reason : Option OpenError} (henabled : c.enabled = true)
    (honConsole : c.OnConsole world reason) (sink : Sink) (now : Duration) (h : History) :
    (routed c sink).lines now world h = (routed c none).lines now world h ++
      if !sink.isConsole && h.any (·.2.isShutdown) then [closingLine] else [] := by
  obtain ⟨body, htrace, htrace'⟩ :=
    (setsOff_of_onConsole henabled honConsole none sink now).trace_eq h
  rw [honConsole.endsWithBanner_eq henabled] at htrace htrace'
  have hbody : (routed c none).trace now world h = body := htrace.trans (List.append_nil body)
  have hclosing : (routed c sink).trace now world h =
      body ++ if !sink.isConsole && h.any (·.2.isShutdown) then [.banner .ended] else [] := htrace'
  rw [lines, lines, hbody, hclosing, List.map_append]
  split_ifs <;> rfl

/-- A sink that takes every line has taken the closing banner more, at the end. -/
theorem linesWritten_of_onConsole {reason : Option OpenError} (henabled : c.enabled = true)
    (honConsole : c.OnConsole world reason) (sink : Sink) (now : Duration) (h : History)
    (hsink : (⟨sink, world, 0⟩ : Delivery).NeverFails) :
    ((routed c sink).after now world h).linesWritten =
      ((routed c none).after now world h).linesWritten +
        if !sink.isConsole && h.any (·.2.isShutdown) then 1 else 0 := by
  rw [honConsole.linesWritten_eq henabled sink hsink, lines_of_onConsole henabled honConsole,
    honConsole.linesWritten_eq henabled none (Delivery.neverFails_console world 0),
    List.length_append]
  split_ifs <;> rfl

/-- **A sink in place of the console.** Let a session be enabled whose lines go to the console,
which its options name or which it falls back to. After every history, the lines that go to a sink
in place of the console are those that would be on the console, and then, once the session has been
ended, the closing banner, unless that sink is the console itself. Both sessions show the same, the
options and why the console is used among it, and only the closing banner makes a difference in the
number of lines. -/
theorem console_overridden {reason : Option OpenError} (henabled : c.enabled = true)
    (honConsole : c.OnConsole world reason) (sink : Sink) (now : Duration) (h : History) :
    Overrides c sink now world h where
  lines_eq := lines_of_onConsole henabled honConsole sink now h
  no_closing := by
    obtain ⟨body, hbody, hlines⟩ := (routed c none).exists_body now world h
    rw [honConsole.endsWithBanner_eq henabled] at hlines
    have hsame : (routed c none).lines now world h = body := hlines.trans (List.append_nil body)
    rwa [hsame]
  received := honConsole.worldAfter_eq henabled sink now h
  printed := by
    rw [honConsole.worldAfter_eq henabled]
    exact congrArg Delivery.world (Delivery.pushAll_console world 0 _)
  shows_same := ((setsOff_of_onConsole henabled honConsole none sink now).after h).showsSame
  config_eq := by rw [after_config, after_config]; rfl
  fallback_eq := by rw [honConsole.fallback_eq henabled, honConsole.fallback_eq henabled]
  written := linesWritten_of_onConsole henabled honConsole sink now h
  summary_eq hsink reading := by
    have hcourse := (setsOff_of_onConsole henabled honConsole none sink now).after h
    have herrors := honConsole.writeErrors_eq henabled none (Delivery.neverFails_console world 0)
      now h
    have hfallback := honConsole.fallback_eq henabled none now h
    rw [hcourse.summary_eq, linesWritten_of_onConsole henabled honConsole sink now h hsink,
      honConsole.writeErrors_eq henabled sink hsink, honConsole.fallback_eq henabled, ← herrors,
      ← hfallback]
    rfl
  closed hsink := by
    refine ⟨_, honConsole.close_eq henabled none (Delivery.neverFails_console world 0) now h 0, ?_⟩
    rw [honConsole.close_eq henabled sink hsink now h 0, lines_of_onConsole henabled honConsole,
      List.length_append, List.any_append]
    cases sink.isConsole <;> simp [Session.Call.isShutdown]

/-- Eager options with the console as the log. -/
def consoleLog : Config := { enabled := true, logfile := consoleName, waitForLoad := false }

/-- The law for a session that is ended over a capture in place of the console. -/
theorem console_overridden_ended : consoleLog.enabled = true ∧ consoleLog.OnConsole {} none ∧
    (⟨.capture, {}, 0⟩ : Delivery).NeverFails ∧
      Overrides consoleLog .capture 0 {} [(0, .shutdown)] := by
  have honConsole : consoleLog.OnConsole {} none := .named (by decide +kernel)
  exact ⟨rfl, honConsole, Delivery.neverFails_capture {} 0,
    console_overridden rfl honConsole .capture 0 [(0, .shutdown)]⟩

/-- **A sink in place of the console gets the closing banner.** The same session without it prints
one line less. -/
theorem override_gets_closing_banner :
    consoleLog.enabled = true ∧ consoleLog.logTarget = .console ∧
      ((routed consoleLog (some .capture)).worldAfter 0 {} [(0, .shutdown)]).captured.toList =
        ["[debugtrace] === TRACE LOGGING STARTED ===", "[debugtrace] === TRACE LOGGING ENDED ==="] ∧
      ((routed consoleLog none).worldAfter 0 {} [(0, .shutdown)]).console.toList =
        ["[debugtrace] === TRACE LOGGING STARTED ==="] ∧
      ((routed consoleLog (some .capture)).worldAfter 0 {} [(0, .shutdown)]).captured ≠
        ((routed consoleLog none).worldAfter 0 {} [(0, .shutdown)]).console ∧
      ((routed consoleLog (some .capture)).after 0 {} [(0, .shutdown)]).linesWritten = 2 ∧
      ((routed consoleLog none).after 0 {} [(0, .shutdown)]).linesWritten = 1 := by
  decide +kernel

end Setup

end RealModeTrace
