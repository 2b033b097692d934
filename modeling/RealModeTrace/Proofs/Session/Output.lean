import RealModeTrace.Proofs.Session.Programs
import RealModeTrace.Proofs.Trace.Delivery

/-!
# The output of a session

A session writes the lines of its records in order to one sink and nothing else, and its count of
lines is the number of lines that the sink took, also after the sink was closed.

* `Session.onConsole?`: whether the sink is the console, which no call changes;
* `Session.Delivered`: what the session wrote is a delivery;
* `Delivered.emit`, `Sound.delivered_step`: records, and a call, deliver their lines;
* `Setup.outlet`, `Setup.lines`: the sink of a session before its first line, and all its lines;
* `Setup.delivered_after`: after every history the lines of all records are delivered.
-/

namespace RealModeTrace

/-! ### The kind of the sink -/

theorem Sink.isConsole_writeLine (sink : Sink) (world : World) (line : String) :
    (sink.writeLine world line).1.isConsole = sink.isConsole := by
  cases sink <;> rfl

namespace Writer

@[simp] theorem isConsole_emit (w : Writer) (world : World) (r : Record) :
    (w.emit world r).1.sink.isConsole = w.sink.isConsole := by
  have h := w.sink.isConsole_writeLine world (w.line.render r.capacity r.pieces).text
  simp only [emit, writePieces]
  split <;> simpa using h

@[simp] theorem isConsole_emitAll (w : Writer) (world : World) (records : List Record) :
    (w.emitAll world records).1.sink.isConsole = w.sink.isConsole := by
  induction records generalizing w world with
  | nil => rfl
  | cons r records ih => rw [emitAll_cons, ih, isConsole_emit]

end Writer

namespace Session

/-- Whether the sink is the console, if there is a sink. -/
def onConsole? (s : Session) : Option Bool :=
  s.writer.map (·.sink.isConsole)

theorem isSome_onConsole? (s : Session) : s.onConsole?.isSome = s.writer.isSome :=
  Option.isSome_map

/-- Whether a session ends with a banner depends on the kind of its sink. -/
theorem closingRecords_eq (s : Session) :
    s.closingRecords = if s.onConsole? = some false then [.banner .ended] else [] := by
  unfold closingRecords onConsole?
  rcases s.writer with _ | w
  · rfl
  · cases h : w.sink.isConsole <;> simp [h]

@[simp] theorem onConsole?_emit (s : Session) (world : World) (records : List Record) :
    (s.emit world records).1.onConsole? = s.onConsole? := by
  simp [onConsole?, emit_fst, Function.comp_def]

@[simp] theorem onConsole?_observe (s : Session) (clock : Readings) (host : Host) (event : Event) :
    (s.observe clock host event).1.onConsole? = s.onConsole? :=
  map_writer_observe s clock host (fun _ => rfl) event

@[simp] theorem onConsole?_update (s : Session) (now : Duration) (c : Config) :
    (s.update now c).onConsole? = s.onConsole? :=
  map_writer_update s now c fun _ => rfl

theorem onConsole?_step (s : Session) (world : World) (clock : Readings) (call : Call) :
    (s.step world clock call).1.onConsole? = if call.isShutdown then none else s.onConsole? := by
  cases call with
  | event host event =>
    rw [step_event_fst, onConsole?_emit, onConsole?_observe]
    rfl
  | update c =>
    rw [step_update_fst, onConsole?_update]
    rfl
  | shutdown =>
    rw [step_shutdown_fst]
    rfl

variable {s : Session} {world : World} {d : Delivery}

/-- The session wrote a delivery: the world is the one after it, the count of lines is that of the
lines taken, and a sink that is open is the one after it. -/
structure Delivered (s : Session) (world : World) (d : Delivery) : Prop where
  world_eq : world = d.world
  lines_eq : s.linesWritten = d.taken
  sink_eq : ∀ w ∈ s.writer, w.sink = d.sink

/-! ### Records -/

theorem delivered_of_writer {w : Writer} (hw : s.writer = some w) :
    s.Delivered world (w.delivery world) where
  world_eq := rfl
  lines_eq := by rw [linesWritten, hw]; rfl
  sink_eq w' h := by
    rw [hw] at h
    rw [← Option.mem_some_iff.1 h]
    rfl

theorem Delivered.eq_delivery {w : Writer} (h : s.Delivered world d) (hw : s.writer = some w) :
    d = w.delivery world := by
  have hlines : w.linesWritten = d.taken := by rw [← h.lines_eq, linesWritten, hw]
  have hsink := h.sink_eq w hw
  obtain ⟨sink, world', taken⟩ := d
  obtain rfl := h.world_eq
  rw [Writer.delivery, hsink, hlines]

/-- Records deliver their lines. Without a sink there must be none. -/
theorem Delivered.emit (h : s.Delivered world d) {records : List Record}
    (hnone : s.writer = none → records = []) :
    (s.emit world records).1.Delivered (s.emit world records).2
      (d.pushAll (records.map Record.text)) := by
  rcases hw : s.writer with _ | w
  · rw [hnone hw, emit_nil]
    exact h
  · rw [h.eq_delivery hw, ← w.delivery_emitAll]
    simp only [Session.emit, hw]
    exact delivered_of_writer rfl

/-! ### Calls -/

/-- Without a sink nothing is recorded. -/
theorem Sound.answer_eq_nil_of_writer (hs : s.Sound) (hw : s.writer = none)
    (entry : Readings × Call) : s.answer entry = [] := by
  obtain ⟨clock, call⟩ := entry
  have hready : s.ready = false := by rw [hs.ready_eq, hw]; rfl
  have hactive := hs.isActive_eq_false hready
  cases call with
  | update c => rfl
  | shutdown =>
    show s.closingRecords = []
    rw [closingRecords, hw]
  | event host event =>
    by_cases hl : Call.isLoad (.event host event) = true
    · obtain ⟨_, filename, cmdline, heq⟩ := Call.exists_of_isLoad hl
      rw [heq, hs.answer_load, hactive, hready]
      rfl
    · exact hs.answer_eq_nil_of_inactive hactive rfl (Bool.eq_false_iff.2 hl)

/-- What leaves the writer alone, its epoch aside, leaves the output alone. -/
theorem Delivered.congr {s' : Session} (h : s.Delivered world d)
    (hwriter : s'.writer.map (·.delivery world) = s.writer.map (·.delivery world))
    (hfinal : s'.finalLines = s.finalLines) : s'.Delivered world d := by
  rcases hw : s.writer with _ | w
  · have hw' : s'.writer = none := Option.map_eq_none_iff.1 (by rw [hwriter, hw]; rfl)
    have hlines := h.lines_eq
    rw [linesWritten, hw] at hlines
    refine ⟨h.world_eq, ?_, fun w hmem => ?_⟩
    · rw [linesWritten, hw']
      exact hfinal.trans hlines
    · rw [hw'] at hmem
      exact absurd hmem (Option.not_mem_none w)
  · obtain ⟨w', hw', heq⟩ : ∃ w', s'.writer = some w' ∧ w'.delivery world = w.delivery world :=
      Option.map_eq_some_iff.1 (by rw [hwriter, hw]; rfl)
    rw [h.eq_delivery hw, ← heq]
    exact delivered_of_writer hw'

theorem Delivered.observe (h : s.Delivered world d) (clock : Readings) (host : Host)
    (event : Event) : (s.observe clock host event).1.Delivered world d := by
  refine h.congr (map_writer_observe s clock host (fun _ => rfl) event) ?_
  rw [observe_fst]
  cases event <;> try rfl
  simp only
  split_ifs <;> rfl

theorem Delivered.update (h : s.Delivered world d) (now : Duration) (c : Config) :
    (s.update now c).Delivered world d :=
  h.congr (map_writer_update s now c fun _ => rfl) (by rw [update_eq])

theorem step_shutdown_world (clock : Readings) :
    (s.step world clock .shutdown).2.1 = (s.emit world s.closingRecords).2 := by
  obtain ⟨config, ready, activation, writer, sampler, files, fallback, finalLines⟩ := s
  cases writer <;> rfl

/-- The end delivers the closing banner and closes the sink. -/
theorem Delivered.shutdown (h : s.Delivered world d) (clock : Readings) :
    (s.step world clock .shutdown).1.Delivered (s.step world clock .shutdown).2.1
      (d.pushAll (s.closingRecords.map Record.text)) := by
  have hnone : s.writer = none → s.closingRecords = [] := fun hw => by rw [closingRecords, hw]
  obtain ⟨hworld, hlines, -⟩ := h.emit hnone
  rw [step_shutdown_fst, step_shutdown_world]
  exact ⟨hworld, hlines, nofun⟩

/-- Every call delivers the lines of its records. -/
theorem Sound.delivered_step (hs : s.Sound) (h : s.Delivered world d) (clock : Readings)
    (call : Call) :
    (s.step world clock call).1.Delivered (s.step world clock call).2.1
      (d.pushAll ((s.answer (clock, call)).map Record.text)) := by
  cases call with
  | update c => exact h.update (clock.nth 0) c
  | shutdown => exact h.shutdown clock
  | event host event =>
    rw [step_event]
    refine (h.observe clock host event).emit fun hw => ?_
    have hnone : s.writer = none := by
      rw [← Option.not_isSome_iff_eq_none] at hw ⊢
      rwa [observe_isSome] at hw
    exact hs.answer_eq_nil_of_writer hnone (clock, .event host event)

end Session

/-! ### Histories -/

namespace Setup

variable (setup : Setup) (now : Duration) (world : World)

theorem onConsole?_start :
    (setup.start now world).1.onConsole? =
      if setup.config.enabled then some (setup.openSink world).1.isConsole else none := by
  rcases h : setup.config.enabled with _ | _
  · rw [start_of_disabled _ _ _ h]
    rfl
  · rw [start_of_enabled _ _ _ h, Session.onConsole?_emit]
    simp only [opened, Session.onConsole?, Option.map_some, if_true]
    split_ifs <;> rfl

/-- The sink of a session before its first line. A session that is not enabled has none, and writes
to no sink. -/
def outlet : Delivery :=
  if setup.config.enabled then ⟨(setup.openSink world).1, (setup.openSink world).2.1, 0⟩
  else ⟨.console, world, 0⟩

@[simp] theorem outlet_taken : (setup.outlet world).taken = 0 := by
  unfold outlet
  split_ifs <;> rfl

/-- The lines of the start and of the calls after it. -/
def lines (h : History) : List String :=
  (setup.trace now world h).map Record.text

theorem delivered_opened : (setup.opened now world).Delivered (setup.openSink world).2.1
    ⟨(setup.openSink world).1, (setup.openSink world).2.1, 0⟩ := by
  have heq : Delivery.mk (setup.openSink world).1 (setup.openSink world).2.1 0 =
      (if setup.config.eager then (Writer.ofSink (setup.openSink world).1).resetEpoch now
      else Writer.ofSink (setup.openSink world).1).delivery (setup.openSink world).2.1 := by
    split_ifs <;> rfl
  rw [heq]
  exact Session.delivered_of_writer rfl

theorem delivered_start : (setup.start now world).1.Delivered (setup.start now world).2.1
    ((setup.outlet world).pushAll ((setup.start now world).2.2.map Record.text)) := by
  rcases h : setup.config.enabled with _ | _
  · rw [start_of_disabled _ _ _ h, outlet, h]
    exact ⟨rfl, rfl, nofun⟩
  · rw [start_eq_of_enabled _ _ _ h, outlet, h]
    exact (setup.delivered_opened now world).emit nofun

/-- After every history the lines of all records are delivered to the sink in order. -/
theorem delivered_after (h : History) :
    (setup.after now world h).Delivered (setup.worldAfter now world h)
      ((setup.outlet world).pushAll (setup.lines now world h)) := by
  induction h using List.reverseRecOn with
  | nil =>
    rw [lines, trace_nil]
    exact setup.delivered_start now world
  | append_singleton h entry ih =>
    rw [after_concat, worldAfter_concat, lines, trace_concat, List.map_append,
      Delivery.pushAll_append]
    exact (setup.sound_after now world h).delivered_step ih entry.1 entry.2

end Setup

end RealModeTrace
