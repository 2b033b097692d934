import RealModeTrace.Proofs.Session.MasterSwitch
import RealModeTrace.Proofs.Session.Output

/-!
# Closed sessions

A session that was started disabled, or that has been ended, has no sink and never gets one: no call
makes a record or changes the world, and in the session itself only the options, the sampler and the
names of handles change.

* `Session.retouch`: a session with other options, another sampler and other names of handles;
* `Session.Sound.step_of_closed`, `Session.Sound.after_of_closed`: that is all that a call, and a
  history, do to a session that accepts no events;
* `Setup.idle_of_disabled`: a session that is started disabled does nothing outside itself;
* `Setup.StaysClosed`: what stays as it is; `Setup.closed_for_good`: it does so through every
  further history.
-/

namespace RealModeTrace

namespace Session

/-- The session with other options, another sampler and other names of handles. -/
def retouch (s : Session) (config : Config) (sampler : Sampler) (handles : HandleTable) : Session :=
  { s with config, sampler, files := { s.files with handles } }

theorem emit_of_writer_eq_none {s : Session} (h : s.writer = none) (world : World)
    (records : List Record) : s.emit world records = (s, world) := by
  rw [emit, h]

variable {s : Session}

theorem Sound.writer_eq_none (hs : s.Sound) (hr : s.ready = false) : s.writer = none := by
  rw [← Option.not_isSome_iff_eq_none, ← hs.ready_eq, hr]
  exact Bool.false_ne_true

/-- An event changes the names of handles at most. -/
theorem Sound.observe_of_closed (hs : s.Sound) (hr : s.ready = false) (clock : Readings)
    (host : Host) (event : Event) : ∃ handles,
      (s.observe clock host event).1 = s.retouch s.config s.sampler handles := by
  have hoff := traces_eq_false (hs.isActive_eq_false hr)
  rw [observe_fst]
  cases event with
  | handleOpened handle filename => exact ⟨s.files.handles.record handle filename, rfl⟩
  | fileClosed handle => exact ⟨s.files.handles.forget handle, rfl⟩
  | instructionFetched _ _ | readIssued _ _ _ _ | readCompleted _ _ _ =>
    refine ⟨s.files.handles, ?_⟩
    simp only [hoff, Bool.false_eq_true, if_false]
    rfl
  | programExec filename cmdline =>
    refine ⟨s.files.handles, ?_⟩
    simp only [hr, Bool.false_and, Bool.false_eq_true, if_false]
    rfl
  | programTerminated exitCode =>
    have hnone : s.writer.isSome = false := by rw [← hs.ready_eq, hr]
    refine ⟨s.files.handles, ?_⟩
    dsimp only
    rw [hnone]
    rfl
  | _ => exact ⟨s.files.handles, rfl⟩

/-- The end of a session that has ended before forgets the names of handles, and nothing else. -/
theorem Sound.shutdown_of_closed (hs : s.Sound) (hr : s.ready = false) (world : World)
    (clock : Readings) :
    (s.step world clock .shutdown).1 = s.retouch s.config s.sampler .empty := by
  have hwriter := hs.writer_eq_none hr
  have hslot : s.files.pending.slot = none := by
    rw [← Option.not_isSome_iff_eq_none]
    exact fun hp => Bool.noConfusion (hr.symm.trans (hs.ready_of_pending hp))
  have hactivation := hs.activation_of_not_ready hr
  rw [step_shutdown_fst, emit_of_writer_eq_none hwriter, linesWritten, hwriter]
  obtain ⟨config, ready, activation, writer, sampler, ⟨handles, ⟨slot⟩⟩, fallback, finalLines⟩ := s
  obtain rfl : ready = false := hr
  obtain rfl : writer = none := hwriter
  obtain rfl : activation = .off := hactivation
  obtain rfl : slot = none := hslot
  rfl

/-- A call to a session that accepts no events. -/
theorem Sound.step_of_closed (hs : s.Sound) (hr : s.ready = false) (world : World)
    (clock : Readings) (call : Call) : ∃ config sampler handles,
      s.step world clock call = (s.retouch config sampler handles, world, []) := by
  have hwriter := hs.writer_eq_none hr
  cases call with
  | event host event =>
    obtain ⟨handles, hobserve⟩ := hs.observe_of_closed hr clock host event
    have hanswer : (s.observe clock host event).2 = [] :=
      hs.answer_eq_nil_of_writer hwriter (clock, .event host event)
    refine ⟨s.config, s.sampler, handles, ?_⟩
    rw [step_event, hanswer, emit_nil, hobserve]
  | update c =>
    refine ⟨c.sanitized, s.sampler.ensureStride c.sanitized.stride, s.files.handles,
      Prod.ext ?_ rfl⟩
    rw [step_update_fst, Session.update]
    exact if_pos (by rw [hr]; rfl)
  | shutdown =>
    have hnone : s.closingRecords = [] := by rw [closingRecords, hwriter]
    refine ⟨s.config, s.sampler, .empty,
      Prod.ext (hs.shutdown_of_closed hr world clock) (Prod.ext ?_ ?_)⟩
    · rw [step_shutdown_world, hnone, emit_nil]
    · rw [step_records]
      exact hnone

/-- A history of a session that accepts no events. -/
theorem Sound.after_of_closed (hs : s.Sound) (hr : s.ready = false) (world : World) (k : History) :
    (∃ config sampler handles, s.after world k = s.retouch config sampler handles) ∧
      s.worldAfter world k = world ∧ s.trace world k = [] := by
  induction k generalizing s with
  | nil => exact ⟨⟨s.config, s.sampler, s.files.handles, rfl⟩, rfl, rfl⟩
  | cons entry k ih =>
    have hstep := hs.step world entry.1 entry.2
    obtain ⟨config, sampler, handles, heq⟩ := hs.step_of_closed hr world entry.1 entry.2
    rw [after_cons, worldAfter_cons, trace_cons, heq]
    rw [heq] at hstep
    obtain ⟨⟨config', sampler', handles', hafter⟩, hworld, htrace⟩ := ih hstep hr
    -- the second retouch covers the first
    exact ⟨⟨config', sampler', handles', hafter⟩, hworld, htrace⟩

end Session

namespace Setup

variable (setup : Setup) (now : Duration) (world : World)

/-- A session that is started disabled never touches the world and records nothing. -/
theorem idle_of_disabled (hdisabled : setup.config.enabled = false) (h : History) :
    setup.worldAfter now world h = world ∧ setup.trace now world h = [] := by
  have hr : (setup.start now world).1.ready = false := by rw [start_ready, hdisabled]
  obtain ⟨-, hworld, htrace⟩ :=
    (setup.sound_start now world).after_of_closed hr (setup.start now world).2.1 h
  rw [worldAfter, trace, hworld, htrace, start_of_disabled _ _ _ hdisabled]
  exact ⟨rfl, rfl⟩

/-- What stays as it was after a history, through a further one. -/
structure StaysClosed (h k : History) : Prop where
  /-- Only the options, the sampler and the names of handles change. -/
  frame : ∃ config sampler handles, setup.after now world (h ++ k) =
    (setup.after now world h).retouch config sampler handles
  /-- No sink gets a line, and no file is opened, emptied or written to. -/
  world_eq : setup.worldAfter now world (h ++ k) = setup.worldAfter now world h
  trace_eq : setup.trace now world (h ++ k) = setup.trace now world h
  lines_eq : (setup.after now world (h ++ k)).linesWritten = (setup.after now world h).linesWritten
  ready : (setup.after now world (h ++ k)).ready = false
  inactive : (setup.after now world (h ++ k)).isActive = false
  depth : (setup.after now world (h ++ k)).activation.depth = 0
  elapsed : ∀ reading, (setup.after now world (h ++ k)).elapsed reading = 0
  no_read : (setup.after now world (h ++ k)).files.pending.isPending = false
  /-- A session that is started disabled does not even open its log file. -/
  untouched : setup.config.enabled = false → setup.worldAfter now world (h ++ k) = world

/-- **A closed session is closed for good.** Let a session be started disabled, or ended within a
history. Whatever it is called for after that, no sink gets a line and no file is touched, it
accepts no events, tracing is off at depth zero, the time and the count of lines stand still, and no
read waits; only the options, the sampler and the names of handles may change. -/
theorem closed_for_good {h : History}
    (hclosed : setup.config.enabled = false ∨ ∃ entry ∈ h, entry.2.isShutdown = true)
    (k : History) : setup.StaysClosed now world h k := by
  have hs := setup.sound_after now world h
  have hr : (setup.after now world h).ready = false := by
    rw [after_ready]
    exact setup.acceptsAfter_eq_false_iff.2 hclosed
  obtain ⟨⟨config, sampler, handles, hframe⟩, hworld, htrace⟩ :=
    hs.after_of_closed hr (setup.worldAfter now world h) k
  rw [← after_append] at hframe
  rw [← worldAfter_append] at hworld
  have hwriter := hs.writer_eq_none hr
  have hafter := setup.sound_after now world (h ++ k)
  have hready : (setup.after now world (h ++ k)).ready = false := by rw [hframe]; exact hr
  have hactivation := hafter.activation_of_not_ready hready
  refine ⟨⟨config, sampler, handles, hframe⟩, hworld, ?_, ?_, hready, ?_, ?_, ?_, ?_, ?_⟩
  · rw [trace_append, htrace, List.append_nil]
  · rw [hframe]
    rfl
  · exact hafter.isActive_eq_false hready
  · rw [hactivation]
    rfl
  · intro reading
    rw [Session.elapsed, hafter.writer_eq_none hready]
  · exact Bool.eq_false_iff.2 fun hp =>
      Bool.noConfusion (hready.symm.trans (hafter.ready_of_pending hp))
  · exact fun hdisabled => (setup.idle_of_disabled now world hdisabled (h ++ k)).1

/-- A program is loaded, and the session is ended. -/
def loadAndEnd : History := [plainLoad, (5, .shutdown)]

/-- Eager options are given, a file is opened and read, and a program is loaded. -/
def calledAgain : History :=
  [(6, .update { enabled := true, waitForLoad := false, sampleRate := 3 }),
    (7, .event .blank (.handleOpened 5 "A.TXT")), (8, .event .blank (.readIssued 5 16 0 0)),
    (9, .event .blank (.programExec "B.EXE" none))]

/-- The law at a session that is ended and called again: the name of the handle is all that such
events leave behind. -/
theorem closed_for_good_calledAgain :
    (∃ entry ∈ loadAndEnd, entry.2.isShutdown = true) ∧
      ({ config := { enabled := true }, sink := some .capture } : Setup).StaysClosed 0 {}
        loadAndEnd calledAgain ∧
      (({ config := { enabled := true }, sink := some .capture } : Setup).after 0 {}
        (loadAndEnd ++ calledAgain)).files.handles.lookup 5 = "A.TXT" := by
  have hend : ∃ entry ∈ loadAndEnd, entry.2.isShutdown = true :=
    ⟨(5, .shutdown), List.mem_cons_of_mem _ List.mem_cons_self, rfl⟩
  exact ⟨hend, closed_for_good _ 0 {} (Or.inr hend) calledAgain, by decide +kernel⟩

end Setup

end RealModeTrace
