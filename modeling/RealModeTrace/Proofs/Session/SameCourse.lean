import RealModeTrace.Proofs.Session.LineCounts

/-!
# Sessions that take the same course

What a session does depends neither on where its lines go nor on the name of its log. Two sessions
that differ in nothing else make the same records until they are ended, and then differ at most in
the closing banner.

* `Session.SameCourse`: the sessions agree on all that the records depend on;
* `Session.SameCourse.step`: every call keeps them so; `Session.SameCourse.answer_eq`: until the end
  a call makes the same records for both;
* `Setup.SetsOff`: two setups whose sessions start on the same course, the second with some more
  records; `Setup.SetsOff.after`, `Setup.SetsOff.trace_eq`: what that comes to after a history.
-/

namespace RealModeTrace

/-- The options with another name for the log. -/
def Config.withLogfile (c : Config) (name : String) : Config := { c with logfile := name }

namespace Session

/-- The sessions agree on everything but where their lines go, how many were taken there, and what
the log is called. -/
structure SameCourse (s t : Session) : Prop where
  options : ∃ name, t.config = s.config.withLogfile name
  ready_eq : t.ready = s.ready
  activation_eq : t.activation = s.activation
  sampler_eq : t.sampler = s.sampler
  files_eq : t.files = s.files
  epoch_eq : t.epoch = s.epoch
  isSome_eq : t.writer.isSome = s.writer.isSome

variable {s t : Session}

theorem SameCourse.isActive_eq (h : s.SameCourse t) : t.isActive = s.isActive := by
  rw [isActive, isActive, h.activation_eq]

theorem SameCourse.elapsed_eq (h : s.SameCourse t) (now : Duration) :
    t.elapsed now = s.elapsed now := by
  rw [Session.elapsed_eq, Session.elapsed_eq, h.epoch_eq]

theorem SameCourse.stamp_eq (h : s.SameCourse t) (now : Duration) : t.stamp now = s.stamp now :=
  funext fun _ => congrArg (Record.timed · _) (h.elapsed_eq now)

theorem SameCourse.stampAll_eq (h : s.SameCourse t) (clock : Readings) :
    t.stampAll clock = s.stampAll clock :=
  stampAll_congr h.stamp_eq clock

theorem SameCourse.traces_eq (h : s.SameCourse t) (category : Bool) :
    t.traces category = s.traces category := by
  rw [traces, traces, h.isActive_eq, h.isSome_eq]

theorem SameCourse.loadActivates_eq (h : s.SameCourse t) (host : Host) :
    loadActivates t.config host = loadActivates s.config host := by
  obtain ⟨name, hname⟩ := h.options
  rw [hname]
  rfl

/-! ### One call -/

/-- An event makes the same records. -/
theorem SameCourse.observe_snd (h : s.SameCourse t) (hs : s.Sound) (ht : t.Sound) (clock : Readings)
    (host : Host) (event : Event) :
    (t.observe clock host event).2 = (s.observe clock host event).2 := by
  obtain ⟨name, hname⟩ := h.options
  cases event with
  | programExec filename cmdline =>
    show t.answer (clock, .event host _) = s.answer (clock, .event host _)
    rw [hs.answer_load, ht.answer_load, h.isActive_eq, h.ready_eq, h.stamp_eq, h.loadActivates_eq]
  | programTerminated exitCode =>
    show t.answer (clock, .event host _) = s.answer (clock, .event host _)
    rw [hs.answer_exit, ht.answer_exit, h.isActive_eq, h.activation_eq, h.stamp_eq]
  | programStayedResident exitCode =>
    simp only [Session.observe_snd, h.traces_eq, h.stamp_eq, h.activation_eq]
  | handleOpened _ _ | setRegisters _ | poke _ _ _ | setBatch _ => rfl
  | _ =>
    -- no entry point reads the name of the log
    simp only [Session.observe_snd, h.traces_eq, h.stamp_eq, h.stampAll_eq, h.sampler_eq,
      h.files_eq, hname]
    rfl

theorem SameCourse.observe (h : s.SameCourse t) (clock : Readings) (host : Host) (event : Event) :
    (s.observe clock host event).1.SameCourse (t.observe clock host event).1 where
  options := by simpa using h.options
  ready_eq := by simpa using h.ready_eq
  activation_eq := by
    rw [observe_activation, observe_activation, h.ready_eq, h.isSome_eq, h.isActive_eq,
      h.activation_eq, h.loadActivates_eq]
  sampler_eq := by
    obtain ⟨name, hname⟩ := h.options
    simp only [observe_sampler, h.traces_eq, h.sampler_eq, hname]
    rfl
  files_eq := by
    obtain ⟨name, hname⟩ := h.options
    simp only [observe_files, h.traces_eq, h.files_eq, hname]
    rfl
  epoch_eq := by
    simp only [observe_epoch, h.ready_eq, h.isSome_eq, h.isActive_eq, h.epoch_eq,
      h.loadActivates_eq]
  isSome_eq := by simpa using h.isSome_eq

theorem SameCourse.emit (h : s.SameCourse t) (world world' : World)
    (records records' : List Record) :
    (s.emit world records).1.SameCourse (t.emit world' records').1 where
  options := by simpa using h.options
  ready_eq := by simpa using h.ready_eq
  activation_eq := by simpa using h.activation_eq
  sampler_eq := by simpa using h.sampler_eq
  files_eq := by simpa using h.files_eq
  epoch_eq := by simpa using h.epoch_eq
  isSome_eq := by simpa using h.isSome_eq

/-- New options bring a name of their own for the log. -/
theorem SameCourse.update (h : s.SameCourse t) (now : Duration) (c : Config) :
    (s.update now c).SameCourse (t.update now c) where
  options := ⟨c.logfile, by rw [update_config, update_config]; rfl⟩
  ready_eq := by simpa using h.ready_eq
  activation_eq := by rw [update_activation, update_activation, h.ready_eq, h.activation_eq]
  sampler_eq := by rw [update_sampler, update_sampler, h.sampler_eq]
  files_eq := by simpa using h.files_eq
  epoch_eq := by
    rw [update_epoch, update_epoch, h.ready_eq, h.isActive_eq, h.isSome_eq, h.epoch_eq]
  isSome_eq := by simpa using h.isSome_eq

theorem SameCourse.shutdown (h : s.SameCourse t) (world world' : World) (clock : Readings) :
    (s.step world clock .shutdown).1.SameCourse (t.step world' clock .shutdown).1 := by
  rw [step_shutdown_fst, step_shutdown_fst]
  exact ⟨h.options, rfl, rfl, h.sampler_eq, rfl, rfl, rfl⟩

/-- **The same call keeps sessions on the same course.** -/
theorem SameCourse.step (h : s.SameCourse t) (world world' : World) (clock : Readings)
    (call : Call) : (s.step world clock call).1.SameCourse (t.step world' clock call).1 := by
  cases call with
  | event host event =>
    rw [step_event_fst, step_event_fst]
    exact (h.observe clock host event).emit ..
  | update c => exact h.update (clock.nth 0) c
  | shutdown => exact h.shutdown world world' clock

/-- A call other than the end makes the same records. -/
theorem SameCourse.answer_eq (h : s.SameCourse t) (hs : s.Sound) (ht : t.Sound)
    {entry : Readings × Call} (hopen : entry.2.isShutdown = false) :
    t.answer entry = s.answer entry := by
  obtain ⟨clock, call⟩ := entry
  cases call with
  | event host event => exact h.observe_snd hs ht clock host event
  | update c => rfl
  | shutdown => cases hopen

end Session

/-! ### Histories -/

namespace Setup

/-- The sessions of the two setups start on the same course, and the second makes some more records
before those of the first. -/
structure SetsOff (setup setup' : Setup) (now : Duration) (world world' : World)
    (extra : List Record) : Prop where
  start : (setup.start now world).1.SameCourse (setup'.start now world').1
  records_eq : (setup'.start now world').2.2 = extra ++ (setup.start now world).2.2

variable {setup setup' : Setup} {now : Duration} {world world' : World} {extra : List Record}

theorem SetsOff.after (hoff : setup.SetsOff setup' now world world' extra) (h : History) :
    (setup.after now world h).SameCourse (setup'.after now world' h) := by
  induction h using List.reverseRecOn with
  | nil => exact hoff.start
  | append_singleton h entry ih =>
    rw [after_concat, after_concat]
    exact ih.step ..

/-- Until the sessions are ended, they differ in the first records alone. -/
theorem SetsOff.trace_of_open (hoff : setup.SetsOff setup' now world world' extra) {h : History}
    (hopen : ∀ entry ∈ h, entry.2.isShutdown = false) :
    setup'.trace now world' h = extra ++ setup.trace now world h := by
  induction h using List.reverseRecOn with
  | nil => rw [trace_nil, trace_nil, hoff.records_eq]
  | append_singleton h entry ih =>
    have hbefore : ∀ e ∈ h, e.2.isShutdown = false :=
      fun e he => hopen e (List.mem_append_left _ he)
    have hentry : entry.2.isShutdown = false := hopen entry (by simp)
    have hanswer := (hoff.after h).answer_eq (setup.sound_after now world h)
      (setup'.sound_after now world' h) hentry
    rw [trace_concat, trace_concat, ih hbefore, hanswer, List.append_assoc]

/-- **Two sessions on the same course.** They make the same records, but for the first of the second
one and the closing banner, which each of them makes if it is to end with one. -/
theorem SetsOff.trace_eq (hoff : setup.SetsOff setup' now world world' extra) (h : History) :
    ∃ body, setup.trace now world h =
        body ++ (if setup.endsWithBanner world && h.any (·.2.isShutdown) then
          [.banner .ended] else []) ∧
      setup'.trace now world' h =
        extra ++ body ++ (if setup'.endsWithBanner world' && h.any (·.2.isShutdown) then
          [.banner .ended] else []) := by
  rcases hany : h.any (·.2.isShutdown) with _ | _
  · have hopen : ∀ entry ∈ h, entry.2.isShutdown = false := by simpa using hany
    refine ⟨setup.trace now world h, ?_, ?_⟩
    · rw [Bool.and_false]
      exact (List.append_nil _).symm
    · rw [Bool.and_false, hoff.trace_of_open hopen]
      exact (List.append_nil _).symm
  · obtain ⟨before, clock, rest, rfl, hopen⟩ := exists_first_shutdown (List.any_eq_true.1 hany)
    refine ⟨setup.trace now world before, ?_, ?_⟩
    · rw [setup.trace_of_shutdown now world rest clock hopen, Bool.and_true]
    · rw [setup'.trace_of_shutdown now world' rest clock hopen, Bool.and_true,
        hoff.trace_of_open hopen]

end Setup

end RealModeTrace
