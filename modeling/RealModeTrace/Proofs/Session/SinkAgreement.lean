import RealModeTrace.Proofs.Session.LineCounts

/-!
# A log file and a capture agree

What a session does never depends on what its sink holds. A session that logs to a file and one
that keeps its lines in a capture are in the same state after every call, the file holds the lines
that the capture holds, and none of them waits to be stored.

* `Session.withSink`: the session over another sink; `withSink_observe_fst`, `withSink_observe_snd`,
  `withSink_update`: events and new options do the same to it;
* `Session.Steady`, `Session.Steady.step_capture`: a call does the same to a session whose sink
  never fails and to the same session over a capture;
* `Setup.capturing`, `Setup.OpensSteady.after_capturing`: the same run over a capture;
* `Setup.Agree`: what agrees; `Setup.sinks_agree`: it does after every history;
* `Setup.stale_log_kept`: a session that is started disabled does not open its log file.
-/

namespace RealModeTrace

/-- The writer over another sink. -/
def Writer.withSink (w : Writer) (sink : Sink) : Writer := { w with sink }

namespace Session

/-- The session over another sink, if it has one. -/
def withSink (s : Session) (sink : Sink) : Session :=
  { s with writer := s.writer.map (·.withSink sink) }

variable (s : Session) (sink : Sink)

@[simp] theorem withSink_config : (s.withSink sink).config = s.config := rfl

@[simp] theorem withSink_ready : (s.withSink sink).ready = s.ready := rfl

@[simp] theorem withSink_isActive : (s.withSink sink).isActive = s.isActive := rfl

@[simp] theorem withSink_activation : (s.withSink sink).activation = s.activation := rfl

@[simp] theorem withSink_isSome : (s.withSink sink).writer.isSome = s.writer.isSome :=
  Option.isSome_map

@[simp] theorem withSink_elapsed (now : Duration) :
    (s.withSink sink).elapsed now = s.elapsed now := by
  obtain ⟨config, ready, activation, writer, sampler, files, fallback, finalLines⟩ := s
  cases writer <;> rfl

@[simp] theorem withSink_stamp (now : Duration) : (s.withSink sink).stamp now = s.stamp now :=
  funext fun _ => congrArg (Record.timed · _) (s.withSink_elapsed sink now)

@[simp] theorem withSink_stampAll (clock : Readings) :
    (s.withSink sink).stampAll clock = s.stampAll clock :=
  stampAll_congr (s.withSink_stamp sink) clock

@[simp] theorem withSink_traces (category : Bool) :
    (s.withSink sink).traces category = s.traces category := by
  rw [traces, traces, withSink_isSome, withSink_isActive]

@[simp] theorem withSink_activateAt (now : Duration) :
    (s.withSink sink).activateAt now = (s.activateAt now).withSink sink := by
  obtain ⟨config, ready, activation, writer, sampler, files, fallback, finalLines⟩ := s
  cases writer <;> rfl

@[simp] theorem withSink_linesWritten : (s.withSink sink).linesWritten = s.linesWritten := by
  obtain ⟨config, ready, activation, writer, sampler, files, fallback, finalLines⟩ := s
  cases writer <;> rfl

/-- What a session tells about itself does not depend on its sink. -/
theorem withSink_summary (now : Duration) : (s.withSink sink).summary now = s.summary now := by
  obtain ⟨config, ready, activation, writer, sampler, files, fallback, finalLines⟩ := s
  cases writer <;> rfl

/-! ### Events and new options -/

theorem withSink_observe_fst (clock : Readings) (host : Host) (event : Event) :
    ((s.withSink sink).observe clock host event).1 =
      (s.observe clock host event).1.withSink sink := by
  rw [observe_fst, observe_fst]
  cases event with
  | programExec filename cmdline =>
    simp only [withSink_ready, withSink_isSome, withSink_isActive, withSink_config,
      withSink_activateAt]
    split_ifs <;> rfl
  | instructionFetched _ _ | readIssued _ _ _ _ | readCompleted _ _ _ =>
    simp only [withSink_traces]
    rfl
  | programTerminated exitCode =>
    simp only [withSink_isSome]
    rfl
  | _ => rfl

theorem withSink_programExec_snd (clock : Readings) (host : Host) (filename : String)
    (cmdline : Option String) :
    ((s.withSink sink).programExec clock host filename cmdline).2 =
      (s.programExec clock host filename cmdline).2 := by
  simp only [programExec, withSink_stamp, withSink_activateAt, withSink_ready, withSink_isActive,
    withSink_config, ← Option.not_isSome, withSink_isSome]
  split_ifs <;> rfl

theorem withSink_programTerminated_snd (now : Duration) (exitCode : UInt8) :
    ((s.withSink sink).programTerminated now exitCode).2 =
      (s.programTerminated now exitCode).2 := by
  simp only [programTerminated, withSink_stamp, withSink_isSome, withSink_activation]
  split_ifs
  · rcases s.activation.terminate with ⟨activation, _ | outcome⟩ <;> rfl
  · rfl

theorem withSink_observe_snd (clock : Readings) (host : Host) (event : Event) :
    ((s.withSink sink).observe clock host event).2 = (s.observe clock host event).2 := by
  rw [observe_snd, observe_snd]
  cases event with
  | programExec filename cmdline =>
    exact s.withSink_programExec_snd sink clock host filename cmdline
  | programTerminated exitCode => exact s.withSink_programTerminated_snd sink (clock.nth 0) exitCode
  | handleOpened _ _ | setRegisters _ | poke _ _ _ | setBatch _ => rfl
  | _ =>
    simp only [withSink_traces, withSink_stamp, withSink_stampAll]
    rfl

theorem withSink_update (now : Duration) (c : Config) :
    (s.withSink sink).update now c = (s.update now c).withSink sink := by
  rw [update_eq, update_eq, withSink_ready, withSink_isActive]
  unfold withSink
  rcases s.ready && c.eager && !s.isActive with _ | _
  · rfl
  · simp only [if_true, Option.map_map]
    rfl

end Session

/-! ### Records -/

namespace Writer

/-- What a record does to a writer whose sink never fails. -/
theorem emit_of_neverFails {w : Writer} {world : World} (h : (w.delivery world).NeverFails)
    (r : Record) : (w.emit world r).1 =
      { w with line := w.line.render r.capacity r.pieces, linesWritten := w.linesWritten + 1 } := by
  obtain ⟨after, hwrite⟩ := h.writeLine_eq (w.line.render r.capacity r.pieces).text
  change w.sink.writeLine world _ = (w.sink, after, none) at hwrite
  simp only [emit, writePieces, hwrite]

/-- Records do the same to a writer over another sink, if neither sink ever fails. -/
theorem withSink_emitAll {w : Writer} {sink : Sink} {world world' : World}
    (h : (w.delivery world).NeverFails) (h' : ((w.withSink sink).delivery world').NeverFails)
    (records : List Record) :
    ((w.withSink sink).emitAll world' records).1 = (w.emitAll world records).1.withSink sink := by
  induction records generalizing w world world' with
  | nil => rfl
  | cons r records ih =>
    have hemit : ((w.withSink sink).emit world' r).1 = (w.emit world r).1.withSink sink := by
      rw [emit_of_neverFails h, emit_of_neverFails h']
      rfl
    -- neither sink fails after the first record either
    have hnext : ((w.emit world r).1.delivery (w.emit world r).2).NeverFails := by
      rw [delivery_emit]
      exact h.pushAll [r.text]
    have hnext' : (((w.withSink sink).emit world' r).1.delivery
        ((w.withSink sink).emit world' r).2).NeverFails := by
      rw [delivery_emit]
      exact h'.pushAll [r.text]
    rw [hemit] at hnext'
    rw [emitAll_cons, emitAll_cons, hemit]
    exact ih hnext hnext'

end Writer

namespace Session

/-- The sink of the session, if it has one, never fails. -/
def Steady (s : Session) (world : World) : Prop :=
  ∀ d ∈ s.writer.map (·.delivery world), d.NeverFails

variable {s : Session} {world : World}

/-- Records do the same to a session over a capture, if its sink never fails. -/
theorem Steady.emit_capture (h : s.Steady world) (world' : World) (records : List Record) :
    ((s.withSink .capture).emit world' records).1 =
      (s.emit world records).1.withSink .capture := by
  rw [emit_fst, emit_fst]
  rcases hw : s.writer with _ | w
  · simp [withSink, hw]
  · have hsteady : (w.delivery world).NeverFails := h _ (by rw [hw]; rfl)
    have hcapture : ((w.withSink .capture).delivery world').NeverFails :=
      Delivery.neverFails_capture world' w.linesWritten
    simp [withSink, hw, Writer.withSink_emitAll hsteady hcapture records]

/-! ### Calls -/

theorem withSink_closingRecords (hconsole : s.onConsole? ≠ some true) :
    (s.withSink .capture).closingRecords = s.closingRecords := by
  have hcapture : (s.withSink .capture).onConsole? = s.onConsole? := by
    rcases hw : s.writer with _ | w
    · rw [onConsole?, onConsole?, withSink, hw]
      rfl
    · have hkind : w.sink.isConsole = false := by
        rw [onConsole?, hw] at hconsole
        simpa using hconsole
      rw [onConsole?, onConsole?, withSink, hw, Option.map_some, Option.map_some, Option.map_some,
        hkind]
      rfl
  rw [closingRecords_eq, closingRecords_eq, hcapture]

/-- A call makes the same records over a capture. -/
theorem withSink_answer (hconsole : s.onConsole? ≠ some true) (entry : Readings × Call) :
    (s.withSink .capture).answer entry = s.answer entry := by
  obtain ⟨clock, call⟩ := entry
  cases call with
  | event host event => exact s.withSink_observe_snd .capture clock host event
  | update c => rfl
  | shutdown => exact withSink_closingRecords hconsole

/-- **A call does the same to a session over a capture**, if the sink of the session never fails and
is not the console. -/
theorem Steady.step_capture (h : s.Steady world) (hconsole : s.onConsole? ≠ some true)
    (world' : World) (clock : Readings) (call : Call) :
    ((s.withSink .capture).step world' clock call).1 =
      (s.step world clock call).1.withSink .capture := by
  cases call with
  | event host event =>
    -- an event may move the epoch before its records are written, but not the sink
    have hobserve : (s.observe clock host event).1.Steady world := by
      have hwriter := map_writer_observe (f := (·.delivery world)) s clock host (fun _ => rfl) event
      rw [Steady, hwriter]
      exact h
    rw [step_event_fst, step_event_fst, withSink_observe_fst, withSink_observe_snd]
    exact hobserve.emit_capture world' _
  | update c => exact s.withSink_update .capture (clock.nth 0) c
  | shutdown =>
    rw [step_shutdown_fst, step_shutdown_fst, withSink_closingRecords hconsole,
      h.emit_capture, withSink_linesWritten]
    rfl

end Session

namespace Setup

variable (setup : Setup) (now : Duration) (world world' : World)

/-- The setup with a capture instead of its own sink. -/
def capturing : Setup := { setup with sink := some .capture }

/-- The sink that the setup opens never fails, is not the console, and is the one asked for. -/
structure OpensSteady : Prop where
  steady : (setup.outlet world).NeverFails
  kind : (setup.openSink world).1.isConsole = false
  asked : (setup.openSink world).2.2 = none

variable {setup world}

theorem OpensSteady.steady_after (h : setup.OpensSteady world) (k : History) :
    (setup.after now world k).Steady (setup.worldAfter now world k) := by
  intro d hd
  obtain ⟨w, hw, rfl⟩ := Option.map_eq_some_iff.1 hd
  rw [← (setup.delivered_after now world k).eq_delivery hw]
  exact h.steady.pushAll _

theorem OpensSteady.onConsole?_ne (h : setup.OpensSteady world) (k : History) :
    (setup.after now world k).onConsole? ≠ some true := by
  rw [onConsole?_after, h.kind]
  split_ifs <;> simp

theorem OpensSteady.opened_capturing (h : setup.OpensSteady world) :
    setup.capturing.opened now world' = (setup.opened now world).withSink .capture := by
  simp only [opened, h.asked, Session.withSink, Option.map_some]
  rcases he : setup.config.eager with _ | _
  · have hc : setup.capturing.config.eager = false := he
    rw [hc]
    rfl
  · have hc : setup.capturing.config.eager = true := he
    rw [hc]
    rfl

theorem OpensSteady.steady_opened (h : setup.OpensSteady world)
    (henabled : setup.config.enabled = true) :
    (setup.opened now world).Steady (setup.openSink world).2.1 := by
  intro d hd
  obtain ⟨w, hw, rfl⟩ := Option.map_eq_some_iff.1 hd
  rw [← (setup.delivered_opened now world).eq_delivery hw]
  have hsteady := h.steady
  rwa [outlet, if_pos henabled] at hsteady

/-- The start over a capture. -/
theorem OpensSteady.start_capturing (h : setup.OpensSteady world) :
    (setup.capturing.start now world').1 = (setup.start now world).1.withSink .capture ∧
      (setup.capturing.start now world').2.2 = (setup.start now world).2.2 := by
  have hrecords : (setup.capturing.start now world').2.2 = (setup.start now world).2.2 := by
    rw [start_records, start_records, h.asked]
    rfl
  refine ⟨?_, hrecords⟩
  by_cases henabled : setup.config.enabled = true
  · have hc : setup.capturing.config.enabled = true := henabled
    rw [start_of_enabled _ _ _ henabled, start_of_enabled _ _ _ hc, h.opened_capturing,
      h.asked]
    exact (h.steady_opened now henabled).emit_capture world' _
  · rw [Bool.not_eq_true] at henabled
    have hc : setup.capturing.config.enabled = false := henabled
    rw [start_of_disabled _ _ _ henabled, start_of_disabled _ _ _ hc]
    rfl

/-- **The same run over a capture.** After every history the session over a capture is the session
over its own sink, but for the sink, and their records are the same. -/
theorem OpensSteady.after_capturing (h : setup.OpensSteady world) (k : History) :
    setup.capturing.after now world' k = (setup.after now world k).withSink .capture ∧
      setup.capturing.trace now world' k = setup.trace now world k := by
  induction k using List.reverseRecOn with
  | nil =>
    rw [after_nil, after_nil, trace_nil, trace_nil]
    exact h.start_capturing now world'
  | append_singleton k entry ih =>
    have hconsole := h.onConsole?_ne now k
    rw [after_concat, after_concat, trace_concat, trace_concat, ih.1, ih.2,
      Session.withSink_answer hconsole]
    exact ⟨(h.steady_after now k).step_capture hconsole _ entry.1 entry.2, rfl⟩

theorem capturing_neverFails (setup : Setup) (world' : World) :
    (setup.capturing.outlet world').NeverFails := by
  unfold outlet
  split_ifs
  · exact Delivery.neverFails_capture world' 0
  · exact Delivery.neverFails_console world' 0

/-- A session that is started disabled leaves the world alone, and a capture gets every line of one
that is not. -/
theorem captured_after (setup : Setup) (world' : World) (k : History) :
    (setup.capturing.worldAfter now world' k).captured =
      world'.captured ++ (setup.capturing.lines now world' k).toArray := by
  by_cases henabled : setup.config.enabled = true
  · have hc : setup.capturing.config.enabled = true := henabled
    obtain ⟨hworld, -, -⟩ := setup.capturing.delivered_after now world' k
    rw [hworld, outlet, if_pos hc]
    exact congrArg (·.world.captured) (Delivery.pushAll_capture world' 0 _)
  · have hc : setup.capturing.config.enabled = false := Bool.eq_false_iff.2 henabled
    obtain ⟨hworld, htrace⟩ := setup.capturing.idle_of_disabled now world' hc k
    rw [hworld, lines, htrace]
    simp

/-! ### A log file and a capture -/

theorem opensSteady_of_create {path : String} {loc : Location} {files : FileTree}
    (hsink : setup.sink = none) (htarget : setup.config.logTarget = .file path)
    (hcreate : world.files.create path = .ok (loc, files))
    (hdevice : ∀ device, world.files.node? loc ≠ some (.device device)) :
    setup.OpensSteady world := by
  have hopen := setup.openSink_of_create world hsink htarget hcreate
  refine ⟨?_, by rw [hopen]; rfl, by rw [hopen]⟩
  by_cases henabled : setup.config.enabled = true
  · have hlog := setup.logsTo_of_create world henabled hsink htarget hcreate hdevice
    exact hlog.inFile.neverFails
  · rw [outlet, if_neg henabled]
    exact Delivery.neverFails_console world 0

variable (setup world)

/-- What agrees between a session that logs to a file and the same session over a capture. -/
structure Agree (loc : Location) (k : History) : Prop where
  /-- The sessions are the same but for the sink. -/
  session_eq : setup.capturing.after now world' k = (setup.after now world k).withSink .capture
  summary_eq : ∀ reading, (setup.capturing.after now world' k).summary reading =
    (setup.after now world k).summary reading
  lines_eq : setup.capturing.lines now world' k = setup.lines now world k
  close_eq : ((setup.capturing.after now world' k).close
      (setup.capturing.worldAfter now world' k)).1 =
    ((setup.after now world k).close (setup.worldAfter now world k)).1
  /-- The capture holds the lines. -/
  captured_eq : (setup.capturing.worldAfter now world' k).captured =
    world'.captured ++ (setup.lines now world k).toArray
  /-- The file holds the lines, each with its line end, and nothing else. -/
  content : setup.config.enabled = true → (setup.worldAfter now world k).files.node? loc =
    some (.file (Text.utf8 (Text.unlines (setup.lines now world k))))
  /-- No line waits to be stored. -/
  nothing_waits : ∀ w ∈ (setup.after now world k).writer, w.sink = .file loc none
  /-- A session that is started disabled opens no file and captures nothing. -/
  untouched : setup.config.enabled = false → setup.worldAfter now world k = world ∧
    setup.capturing.worldAfter now world' k = world'

variable {setup world}

/-- **A log file and a capture agree.** Let the log file of a setup be one that can be opened and is
no device. After every history, the session that logs to it and the same session over a capture are
the same but for the sink: they tell the same about themselves, wrote the same lines, and would be
closed with the same result. If the session was started enabled, the file holds exactly the lines in
the capture, each with its line end, and no line waits to be stored; if not, the file is as it was
and nothing was captured. -/
theorem sinks_agree {path : String} {loc : Location} {files : FileTree}
    (hsink : setup.sink = none) (htarget : setup.config.logTarget = .file path)
    (hcreate : world.files.create path = .ok (loc, files))
    (hdevice : ∀ device, world.files.node? loc ≠ some (.device device)) (k : History) :
    setup.Agree now world world' loc k := by
  have h := opensSteady_of_create hsink htarget hcreate hdevice
  obtain ⟨hsession, htrace⟩ := h.after_capturing now world' k
  have hlines : setup.capturing.lines now world' k = setup.lines now world k :=
    congrArg (List.map Record.text) htrace
  have hdelivered := setup.delivered_after now world k
  refine ⟨hsession, fun reading => ?_, hlines, ?_, ?_, fun henabled => ?_, fun w hw => ?_,
    fun hdisabled => ⟨(setup.idle_of_disabled now world hdisabled k).1,
      (setup.capturing.idle_of_disabled now world' hdisabled k).1⟩⟩
  · rw [hsession, Session.withSink_summary]
  · rw [close_of_neverFails _ _ _ h.steady k 0,
      close_of_neverFails _ _ _ (setup.capturing_neverFails world') k 0,
      (h.after_capturing now world' _).1, Session.withSink_linesWritten]
  · rw [captured_after, hlines]
  · have hlog := setup.logsTo_of_create world henabled hsink htarget hcreate hdevice
    rw [hdelivered.world_eq]
    simpa using (hlog.inFile.pushAll (setup.lines now world k)).1.file_eq
  · -- there is a sink, so the session was started enabled
    have haccepts : setup.acceptsAfter k = true := by
      rw [← setup.after_ready now world, (setup.sound_after now world k).ready_eq, hw]
      rfl
    have henabled : setup.config.enabled = true := (Bool.and_eq_true_iff.1 haccepts).1
    rw [hdelivered.sink_eq w hw, h.steady.sink_eq, outlet, if_pos henabled,
      setup.openSink_of_create world hsink htarget hcreate]

/-- A world with a log file from before. -/
def staleWorld : World where
  files := { entries := [(["t.log"], .file (Text.utf8 "stale\n"))] }

/-- The law over a log file from before, of which nothing is left. -/
theorem sinks_agree_stale : ∃ files,
    logging.sink = none ∧ logging.config.logTarget = .file "t.log" ∧
      staleWorld.files.create "t.log" = .ok (["t.log"], files) ∧
      (∀ device, staleWorld.files.node? ["t.log"] ≠ some (.device device)) ∧
      logging.Agree 0 staleWorld {} ["t.log"] (creates "A.TXT") := by
  obtain ⟨files, hcreate⟩ : ∃ files, staleWorld.files.create "t.log" = .ok (["t.log"], files) :=
    FileTree.exists_create (by decide +kernel)
  have htarget : logging.config.logTarget = .file "t.log" := by decide
  have hdevice : ∀ device, staleWorld.files.node? ["t.log"] ≠ some (.device device) := nofun
  exact ⟨files, rfl, htarget, hcreate, hdevice,
    sinks_agree 0 {} rfl htarget hcreate hdevice (creates "A.TXT")⟩

/-- The setup of a session with a log file that is started disabled. -/
def disabledLogging : Setup where
  config := { enabled := false, logfile := "t.log" }

/-- **An old log stays under a disabled session.** Its log file could be opened, but is not: it
holds what it held before, and not the lines in the capture, of which there are none. -/
theorem stale_log_kept :
    (∃ files, staleWorld.files.create "t.log" = .ok (["t.log"], files)) ∧
      disabledLogging.config.logTarget = .file "t.log" ∧
      (disabledLogging.capturing.worldAfter 0 {} []).captured.toList = [] ∧
      (disabledLogging.worldAfter 0 staleWorld []).files.node? ["t.log"] =
        some (.file (Text.utf8 "stale\n")) ∧
      (disabledLogging.worldAfter 0 staleWorld []).files.node? ["t.log"] ≠
        some (.file (Text.utf8 (Text.unlines
          (disabledLogging.capturing.worldAfter 0 {} []).captured.toList))) := by
  have hkept : (disabledLogging.worldAfter 0 staleWorld []).files.node? ["t.log"] =
      some (.file (Text.utf8 "stale\n")) := by
    rw [(disabledLogging.idle_of_disabled 0 staleWorld rfl []).1]
    rfl
  have hempty : (disabledLogging.capturing.worldAfter 0 {} []).captured.toList = [] := by
    rw [(disabledLogging.capturing.idle_of_disabled 0 {} rfl []).1]
  refine ⟨FileTree.exists_create (by decide +kernel), by decide, hempty, hkept, ?_⟩
  rw [hkept, hempty]
  intro heq
  have hsize : (Text.utf8 "stale\n").size = (Text.utf8 (Text.unlines [])).size :=
    congrArg ByteArray.size (Node.file.inj (Option.some.inj heq))
  exact absurd hsize (by decide)

end Setup

end RealModeTrace
