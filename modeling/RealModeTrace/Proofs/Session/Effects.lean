import RealModeTrace.Proofs.Session.History

/-!
# What a call changes

Each part of a session is changed by few calls. The equations below say by which and how, so that no
other module opens the entry points.

* `emit_fst`: writing records changes the writer alone, and not its epoch;
* `observe_snd`: the records of an event; `mem_stampAll`: each of several records is stamped at
  one of the readings of the call;
* `observe_activation`, `observe_sampler`, `observe_files`, `observe_epoch`: the parts after an
  event;
* `update_…`, `step_shutdown`: the parts after new options and after the end;
* `start_…`: the parts at the start.
-/

namespace RealModeTrace

namespace Writer

@[simp] theorem emit_epoch (w : Writer) (world : World) (r : Record) :
    (w.emit world r).1.epoch = w.epoch := by
  simp only [emit, writePieces]
  split <;> rfl

@[simp] theorem emitAll_epoch (w : Writer) (world : World) (records : List Record) :
    (w.emitAll world records).1.epoch = w.epoch := by
  induction records generalizing w world with
  | nil => rfl
  | cons r records ih => rw [emitAll_cons, ih, emit_epoch]

end Writer

namespace Config

@[simp] theorem sanitized_eager (c : Config) : c.sanitized.eager = c.eager := rfl

theorem enabled_of_eager {c : Config} (h : c.eager = true) : c.enabled = true := by
  rw [eager, Bool.and_eq_true] at h
  exact h.1

end Config

/-- The records of a completed read: its result under the name of the handle, and the data. -/
theorem FileLog.eq_of_mem_completeRead {log : FileLog} {host : Host} {handle actual : UInt16}
    {buffer : UInt32} {limit : Nat} {payload : Payload}
    (h : payload ∈ (log.completeRead host handle actual buffer limit).2) :
    payload = .fileReadResult (log.handles.lookup handle) handle actual ∨
      ∃ bytes, payload = .fileData bytes := by
  unfold completeRead at h
  rcases hp : log.pending.complete handle with ⟨pending, _ | request⟩
  · rw [hp] at h
    exact absurd h List.not_mem_nil
  · rw [hp] at h
    rcases List.mem_cons.1 h with rfl | h
    · exact Or.inl rfl
    · obtain ⟨-, h⟩ := List.mem_ite_nil_left.1 h
      exact Or.inr ⟨_, List.mem_singleton.1 h⟩

namespace Activation

theorem activate_of_active {a : Activation} (h : a.active = true) : a.activate = a :=
  if_pos h

theorem activate_of_inactive {a : Activation} (h : a.active = false) : a.activate = ⟨true, 0⟩ :=
  if_neg (by rw [h]; exact Bool.false_ne_true)

theorem terminate_of_inactive {a : Activation} (h : a.active = false) :
    a.terminate = (a, none) :=
  if_neg (by rw [h]; exact Bool.false_ne_true)

/-- An exit while active: tracing goes on exactly if the depth stays positive. -/
theorem terminate_of_active {a : Activation} (h : a.active = true) :
    a.terminate = (if a.depth ≤ 1 then off else ⟨true, a.depth - 1⟩,
      some ⟨a.depth - 1, decide (a.depth ≤ 1)⟩) := by
  unfold terminate
  rw [if_pos h, h]
  by_cases hd : a.depth ≤ 1
  · have : a.depth - 1 ≤ 0 := by omega
    simp [hd, this]
  · have : ¬ a.depth - 1 ≤ 0 := by omega
    simp [hd, this]

end Activation

namespace Session

/-- The epoch of the trace. Without a sink there is none. -/
def epoch (s : Session) : Epoch :=
  match s.writer with
  | some w => w.epoch
  | none => .unset

theorem elapsed_eq (s : Session) (now : Duration) : s.elapsed now = s.epoch.elapsed now := by
  unfold elapsed epoch
  rcases s.writer with _ | w <;> rfl

/-- The records of what was observed, each at one of the readings. -/
theorem mem_stampAll {s : Session} {clock : Readings} {payloads : List Payload} {r : Record}
    (h : r ∈ s.stampAll clock payloads) :
    ∃ n payload, payload ∈ payloads ∧ r = s.stamp (clock.nth n) payload := by
  obtain ⟨n, hn, rfl⟩ := List.mem_mapIdx.1 h
  exact ⟨n, payloads[n], List.getElem_mem hn, rfl⟩

/-- Sessions that tell the same times make the same records of what is observed. -/
theorem stampAll_congr {s t : Session} (h : ∀ now, t.stamp now = s.stamp now) (clock : Readings) :
    t.stampAll clock = s.stampAll clock := by
  unfold stampAll
  simp only [h]

theorem activateAt_epoch (s : Session) (now : Duration) (h : s.writer.isSome = true) :
    (s.activateAt now).epoch = .startingAt now := by
  obtain ⟨w, hw⟩ := Option.isSome_iff_exists.1 h
  simp only [epoch, activateAt, hw, Option.map_some]
  rfl

/-- The closing banner is the only record of the end. -/
theorem eq_of_mem_closingRecords {s : Session} {r : Record} (h : r ∈ s.closingRecords) :
    r = .banner .ended := by
  unfold closingRecords at h
  rcases hw : s.writer with _ | w <;> rw [hw] at h
  · exact absurd h List.not_mem_nil
  · obtain ⟨-, h⟩ := List.mem_ite_nil_left.1 h
    exact List.mem_singleton.1 h

/-! ### Writing -/

section Emit

variable (s : Session) (world : World) (records : List Record)

theorem emit_fst : (s.emit world records).1 =
    { s with writer := s.writer.map fun w => (w.emitAll world records).1 } := by
  obtain ⟨config, ready, activation, writer, sampler, files, fallback, finalLines⟩ := s
  cases writer <;> rfl

@[simp] theorem emit_config : (s.emit world records).1.config = s.config := by rw [emit_fst]

@[simp] theorem emit_ready : (s.emit world records).1.ready = s.ready := by rw [emit_fst]

@[simp] theorem emit_activation : (s.emit world records).1.activation = s.activation := by
  rw [emit_fst]

@[simp] theorem emit_sampler : (s.emit world records).1.sampler = s.sampler := by rw [emit_fst]

@[simp] theorem emit_files : (s.emit world records).1.files = s.files := by rw [emit_fst]

@[simp] theorem emit_fallback : (s.emit world records).1.fallback = s.fallback := by rw [emit_fst]

@[simp] theorem emit_isSome :
    (s.emit world records).1.writer.isSome = s.writer.isSome := by
  rw [emit_fst, Option.isSome_map]

@[simp] theorem emit_epoch : (s.emit world records).1.epoch = s.epoch := by
  rw [emit_fst]
  unfold epoch
  rcases s.writer with _ | w
  · rfl
  · exact w.emitAll_epoch world records

end Emit

/-! ### Events -/

section Events

variable (s : Session) (now : Duration) (clock : Readings) (host : Host)

theorem instructionFetched_fst (cs ip : UInt16) : (s.instructionFetched now host cs ip).1 =
    { s with sampler :=
      if s.traces s.config.instructions then s.sampler.tick.1 else s.sampler } := by
  unfold instructionFetched
  split <;> rfl

theorem interruptInvoked_fst (number : UInt8) : (s.interruptInvoked now host number).1 = s := by
  unfold interruptInvoked
  split <;> rfl

theorem fileCreated_fst (filename : String) (attributes : UInt16) :
    (s.fileCreated now filename attributes).1 = s := by
  unfold fileCreated
  split <;> rfl

theorem fileOpened_fst (filename : String) (mode : UInt8) :
    (s.fileOpened now filename mode).1 = s := by
  unfold fileOpened
  split <;> rfl

theorem readIssued_fst (request : ReadRequest) : (s.readIssued now request).1 =
    { s with files :=
      if s.traces s.config.fileIo then (s.files.issueRead request).1 else s.files } := by
  unfold readIssued
  split <;> rfl

theorem readCompleted_fst (handle actual : UInt16) (buffer : UInt32) :
    (s.readCompleted clock host handle actual buffer).1 =
      { s with files := if s.traces s.config.fileIo then
          (s.files.completeRead host handle actual buffer s.config.dumpLimit).1
        else s.files } := by
  unfold readCompleted
  split <;> rfl

theorem programExec_fst (filename : String) (cmdline : Option String) :
    (s.programExec clock host filename cmdline).1 =
      if s.ready && s.writer.isSome then
        if s.isActive then s.pushExec
        else if loadActivates s.config host then (s.activateAt (clock.nth 0)).pushExec
        else s
      else s := by
  unfold programExec
  cases s.ready <;> rcases s.writer with _ | w <;> cases s.isActive <;>
    cases loadActivates s.config host <;> rfl

theorem programTerminated_fst (exitCode : UInt8) : (s.programTerminated now exitCode).1 =
    { s with activation :=
      if s.writer.isSome then s.activation.terminate.1 else s.activation } := by
  unfold programTerminated
  by_cases hw : s.writer.isSome = true
  · rw [if_pos hw, if_pos hw]
    unfold Activation.terminate
    cases s.activation.active
    · rfl
    · by_cases hd : s.activation.depth - 1 ≤ 0 <;> simp only [hd, if_true, if_false]
  · rw [if_neg hw, if_neg hw]

theorem programStayedResident_fst (exitCode : UInt8) :
    (s.programStayedResident now exitCode).1 = s := by
  unfold programStayedResident
  split <;> rfl

theorem videoModeChanging_fst (oldMode newMode : UInt16) :
    (s.videoModeChanging now oldMode newMode).1 = s := by
  unfold videoModeChanging
  split <;> rfl

/-- The session after an event. -/
theorem observe_fst (event : Event) : (s.observe clock host event).1 =
    match event with
    | .instructionFetched _ _ =>
      { s with sampler :=
        if s.traces s.config.instructions then s.sampler.tick.1 else s.sampler }
    | .handleOpened handle filename => { s with files := s.files.record handle filename }
    | .fileClosed handle => { s with files := s.files.forget handle }
    | .readIssued handle requested segment offset =>
      { s with files := if s.traces s.config.fileIo then
          (s.files.issueRead ⟨handle, requested, segment, offset⟩).1
        else s.files }
    | .readCompleted handle actual buffer =>
      { s with files := if s.traces s.config.fileIo then
          (s.files.completeRead host handle actual buffer s.config.dumpLimit).1
        else s.files }
    | .programExec _ _ =>
      if s.ready && s.writer.isSome then
        if s.isActive then s.pushExec
        else if loadActivates s.config host then (s.activateAt (clock.nth 0)).pushExec
        else s
      else s
    | .programTerminated _ =>
      { s with activation :=
        if s.writer.isSome then s.activation.terminate.1 else s.activation }
    | _ => s := by
  cases event with
  | instructionFetched cs ip => exact s.instructionFetched_fst (clock.nth 0) host cs ip
  | interruptInvoked number => exact s.interruptInvoked_fst (clock.nth 0) host number
  | fileCreated filename attributes => exact s.fileCreated_fst (clock.nth 0) filename attributes
  | fileOpened filename mode => exact s.fileOpened_fst (clock.nth 0) filename mode
  | readIssued handle requested segment offset => exact s.readIssued_fst (clock.nth 0) _
  | readCompleted handle actual buffer => exact s.readCompleted_fst clock host handle actual buffer
  | programExec filename cmdline => exact s.programExec_fst clock host filename cmdline
  | programTerminated exitCode => exact s.programTerminated_fst (clock.nth 0) exitCode
  | programStayedResident exitCode => exact s.programStayedResident_fst (clock.nth 0) exitCode
  | videoModeChanging oldMode newMode => exact s.videoModeChanging_fst (clock.nth 0) oldMode newMode
  | _ => rfl

/-- The records of an event. -/
theorem observe_snd (event : Event) : (s.observe clock host event).2 =
    match event with
    | .instructionFetched cs ip =>
      if s.traces s.config.instructions && s.sampler.tick.2 then
        [s.stamp (clock.nth 0) (.instruction cs ip (host.opcode cs ip) host.registers)]
      else []
    | .interruptInvoked number =>
      if s.traces s.config.interrupts &&
          !Exclusion.excludes s.config.excludedInterrupts number then
        [s.stamp (clock.nth 0) (.interrupt number host.registers)]
      else []
    | .fileCreated filename attributes =>
      if s.traces s.config.fileIo then [s.stamp (clock.nth 0) (.fileCreate filename attributes)]
      else []
    | .fileOpened filename mode =>
      if s.traces s.config.fileIo then [s.stamp (clock.nth 0) (.fileOpen filename mode)] else []
    | .fileClosed handle =>
      if s.traces s.config.fileIo then [s.stamp (clock.nth 0) (s.files.close handle).2] else []
    | .readIssued handle requested segment offset =>
      if s.traces s.config.fileIo then
        [s.stamp (clock.nth 0) (s.files.issueRead ⟨handle, requested, segment, offset⟩).2]
      else []
    | .readCompleted handle actual buffer =>
      if s.traces s.config.fileIo then
        s.stampAll clock
          (s.files.completeRead host handle actual buffer s.config.dumpLimit).2
      else []
    | .programExec filename cmdline => (s.programExec clock host filename cmdline).2
    | .programTerminated exitCode => (s.programTerminated (clock.nth 0) exitCode).2
    | .programStayedResident exitCode =>
      if s.traces true then [s.stamp (clock.nth 0) (.stayedResident exitCode s.activation.depth)]
      else []
    | .videoModeChanging oldMode newMode =>
      if s.traces s.config.videoModes then [s.stamp (clock.nth 0) (.videoMode oldMode newMode)]
      else []
    | _ => [] := by
  cases event with
  | instructionFetched cs ip =>
    show (s.instructionFetched (clock.nth 0) host cs ip).2 = _
    unfold instructionFetched
    cases s.traces s.config.instructions <;> rfl
  | interruptInvoked number => exact apply_ite Prod.snd _ _ _
  | fileCreated filename attributes => exact apply_ite Prod.snd _ _ _
  | fileOpened filename mode => exact apply_ite Prod.snd _ _ _
  | readIssued handle requested segment offset => exact apply_ite Prod.snd _ _ _
  | readCompleted handle actual buffer => exact apply_ite Prod.snd _ _ _
  | programStayedResident exitCode => exact apply_ite Prod.snd _ _ _
  | videoModeChanging oldMode newMode => exact apply_ite Prod.snd _ _ _
  | _ => rfl

@[simp] theorem observe_config (event : Event) :
    (s.observe clock host event).1.config = s.config := by
  rw [observe_fst]
  cases event <;> try rfl
  simp only
  split_ifs <;> rfl

@[simp] theorem observe_ready (event : Event) :
    (s.observe clock host event).1.ready = s.ready := by
  rw [observe_fst]
  cases event <;> try rfl
  simp only
  split_ifs <;> rfl

@[simp] theorem observe_fallback (event : Event) :
    (s.observe clock host event).1.fallback = s.fallback := by
  rw [observe_fst]
  cases event <;> try rfl
  simp only
  split_ifs <;> rfl

@[simp] theorem observe_isSome (event : Event) :
    (s.observe clock host event).1.writer.isSome = s.writer.isSome := by
  rw [observe_fst]
  cases event <;> try rfl
  simp only
  split_ifs
  · rfl
  · exact Option.isSome_map
  · rfl
  · rfl

theorem observe_sampler (event : Event) : (s.observe clock host event).1.sampler =
    match event with
    | .instructionFetched _ _ =>
      if s.traces s.config.instructions then s.sampler.tick.1 else s.sampler
    | _ => s.sampler := by
  rw [observe_fst]
  cases event <;> try rfl
  simp only
  split_ifs <;> rfl

theorem observe_files (event : Event) : (s.observe clock host event).1.files =
    match event with
    | .handleOpened handle filename => s.files.record handle filename
    | .fileClosed handle => s.files.forget handle
    | .readIssued handle requested segment offset =>
      if s.traces s.config.fileIo then
        (s.files.issueRead ⟨handle, requested, segment, offset⟩).1
      else s.files
    | .readCompleted handle actual buffer =>
      if s.traces s.config.fileIo then
        (s.files.completeRead host handle actual buffer s.config.dumpLimit).1
      else s.files
    | _ => s.files := by
  rw [observe_fst]
  cases event <;> try rfl
  simp only
  split_ifs <;> rfl

theorem observe_activation (event : Event) : (s.observe clock host event).1.activation =
    match event with
    | .programExec _ _ =>
      if s.ready && s.writer.isSome && (s.isActive || loadActivates s.config host) then
        s.activation.activate.pushExec
      else s.activation
    | .programTerminated _ =>
      if s.writer.isSome then s.activation.terminate.1 else s.activation
    | _ => s.activation := by
  rw [observe_fst]
  cases event <;> try rfl
  simp only
  rcases s.ready && s.writer.isSome with _ | _
  · rfl
  rcases ha : s.isActive with _ | _
  · rcases loadActivates s.config host with _ | _ <;> rfl
  · show s.activation.pushExec = s.activation.activate.pushExec
    rw [Activation.activate_of_active ha]

theorem observe_epoch (event : Event) : (s.observe clock host event).1.epoch =
    match event with
    | .programExec _ _ =>
      if s.ready && s.writer.isSome && !s.isActive && loadActivates s.config host then
        .startingAt (clock.nth 0)
      else s.epoch
    | _ => s.epoch := by
  rw [observe_fst]
  cases event <;> try rfl
  simp only
  -- only a load that begins a trace moves the epoch
  rcases hw : s.writer with _ | w
  · rw [Option.isSome_none, Bool.and_false]
    rfl
  rcases s.ready with _ | _
  · rfl
  rcases s.isActive with _ | _
  · rcases loadActivates s.config host with _ | _
    · rfl
    · exact activateAt_epoch s (clock.nth 0) (by rw [hw]; rfl)
  · rfl

/-- An event moves at most the epoch of the writer. -/
theorem map_writer_observe {α : Type} {f : Writer → α}
    (hf : ∀ w, f (w.resetEpoch (clock.nth 0)) = f w) (event : Event) :
    (s.observe clock host event).1.writer.map f = s.writer.map f := by
  rw [observe_fst]
  cases event <;> try rfl
  simp only
  split_ifs
  · rfl
  · rw [pushExec, activateAt, Option.map_map]
    exact congrArg (Option.map · s.writer) (funext hf)
  · rfl
  · rfl

end Events

/-! ### New options -/

section Update

variable (s : Session) (now : Duration) (c : Config)

/-- The session under new options. The activation follows from them if the session accepts
events, and an epoch is set if tracing is switched on and there is none. -/
theorem update_eq : s.update now c =
    { s with
      config := c.sanitized
      sampler := s.sampler.ensureStride c.sanitized.stride
      activation :=
        if s.ready then if c.eager then s.activation.activate else .off else s.activation
      writer :=
        if s.ready && c.eager && !s.isActive then s.writer.map (·.ensureEpoch now)
        else s.writer } := by
  -- the new options are in force before the activation is decided
  obtain ⟨config, ready, ⟨active, depth⟩, writer, sampler, files, fallback, finalLines⟩ := s
  simp only [update, Config.sanitized_eager]
  cases ready <;> cases c.eager <;> cases active <;> rfl

@[simp] theorem update_config : (s.update now c).config = c.sanitized := by rw [update_eq]

@[simp] theorem update_ready : (s.update now c).ready = s.ready := by rw [update_eq]

@[simp] theorem update_files : (s.update now c).files = s.files := by rw [update_eq]

@[simp] theorem update_fallback : (s.update now c).fallback = s.fallback := by rw [update_eq]

theorem update_sampler :
    (s.update now c).sampler = s.sampler.ensureStride c.sanitized.stride := by rw [update_eq]

theorem update_activation : (s.update now c).activation =
    if s.ready then if c.eager then s.activation.activate else .off else s.activation := by
  rw [update_eq]

@[simp] theorem update_isSome : (s.update now c).writer.isSome = s.writer.isSome := by
  rw [update_eq]
  simp only
  split_ifs
  · exact Option.isSome_map
  · rfl

theorem update_epoch : (s.update now c).epoch =
    if s.ready && c.eager && !s.isActive && s.writer.isSome then s.epoch.ensure now
    else s.epoch := by
  rw [update_eq]
  unfold epoch
  rcases s.writer with _ | w
  · rw [Option.isSome_none, Bool.and_false]
    simp
  · rw [Option.isSome_some, Bool.and_true]
    simp only
    split_ifs <;> rfl

/-- New options move at most the epoch of the writer. -/
theorem map_writer_update {α : Type} {f : Writer → α} (hf : ∀ w, f (w.ensureEpoch now) = f w) :
    (s.update now c).writer.map f = s.writer.map f := by
  rw [update_eq]
  simp only
  split_ifs
  · rw [Option.map_map]
    exact congrArg (Option.map · s.writer) (funext hf)
  · rfl

end Update

/-! ### Any call -/

section Step

variable (s : Session) (world : World) (clock : Readings)

theorem step_event_fst (host : Host) (event : Event) :
    (s.step world clock (.event host event)).1 =
      ((s.observe clock host event).1.emit world (s.observe clock host event).2).1 := by
  rw [step_event]

theorem step_update_fst (c : Config) :
    (s.step world clock (.update c)).1 = s.update (clock.nth 0) c := rfl

/-- The session after its end, which leaves the options and the sampler alone. -/
theorem step_shutdown_fst : (s.step world clock .shutdown).1 =
    { s with
      ready := false
      activation := .off
      files := .empty
      writer := none
      finalLines := (s.emit world s.closingRecords).1.linesWritten } := by
  obtain ⟨config, ready, activation, writer, sampler, files, fallback, finalLines⟩ := s
  cases writer <;> rfl

theorem step_config (call : Call) :
    (s.step world clock call).1.config = (call.newConfig?.map Config.sanitized).getD s.config := by
  cases call with
  | event host event => rw [step_event_fst, emit_config, observe_config]; rfl
  | update c => rw [step_update_fst, update_config]; rfl
  | shutdown => rw [step_shutdown_fst]; rfl

theorem step_ready (call : Call) :
    (s.step world clock call).1.ready = (s.ready && !call.isShutdown) := by
  cases call with
  | event host event =>
    rw [step_event_fst, emit_ready, observe_ready]
    exact (Bool.and_true _).symm
  | update c =>
    rw [step_update_fst, update_ready]
    exact (Bool.and_true _).symm
  | shutdown =>
    rw [step_shutdown_fst]
    exact (Bool.and_false _).symm

/-- No call changes why the console is used. -/
theorem step_fallback (call : Call) : (s.step world clock call).1.fallback = s.fallback := by
  cases call with
  | event host event => rw [step_event_fst, emit_fallback, observe_fallback]
  | update c => rw [step_update_fst, update_fallback]
  | shutdown => rw [step_shutdown_fst]

end Step

end Session

namespace Setup

/-! ### The start -/

variable (setup : Setup) (now : Duration) (world : World)

/-- An enabled session with its sink open, before its first records are written. -/
def opened : Session :=
  { Session.ofConfig setup.config with
    ready := true
    activation := if setup.config.eager then ⟨true, 0⟩ else .off
    writer := some
      (if setup.config.eager then (Writer.ofSink (setup.openSink world).1).resetEpoch now
      else Writer.ofSink (setup.openSink world).1)
    fallback := (setup.openSink world).2.2 }

/-- The start of an enabled session: its sink is opened, and its first records are written. -/
theorem start_eq_of_enabled (h : setup.config.enabled = true) :
    setup.start now world =
      (((setup.opened now world).emit (setup.openSink world).2.1
          (openingRecords setup.config.eager (setup.openSink world).2.2)).1,
        ((setup.opened now world).emit (setup.openSink world).2.1
          (openingRecords setup.config.eager (setup.openSink world).2.2)).2,
        openingRecords setup.config.eager (setup.openSink world).2.2) := by
  have he : (Session.ofConfig setup.config).config.enabled = true := h
  simp only [start]
  rw [if_pos he]
  rfl

theorem start_of_enabled (h : setup.config.enabled = true) :
    (setup.start now world).1 =
      ((setup.opened now world).emit (setup.openSink world).2.1
        (openingRecords setup.config.eager (setup.openSink world).2.2)).1 :=
  congrArg Prod.fst (setup.start_eq_of_enabled now world h)

theorem start_of_disabled (h : setup.config.enabled = false) :
    setup.start now world = (Session.ofConfig setup.config, world, []) := by
  have he : (Session.ofConfig setup.config).config.enabled = false := h
  simp only [start]
  rw [if_neg (by rw [he]; exact Bool.false_ne_true)]

/-- The first records: a banner if the console replaces the log file, and one if tracing begins. -/
theorem start_records : (setup.start now world).2.2 =
    if setup.config.enabled then
      openingRecords setup.config.eager (setup.openSink world).2.2
    else [] := by
  rcases h : setup.config.enabled with _ | _
  · rw [start_of_disabled _ _ _ h]; rfl
  · exact congrArg (·.2.2) (setup.start_eq_of_enabled now world h)

/-- The first records are banners. -/
theorem eq_banner_of_mem_start {r : Record} (hr : r ∈ (setup.start now world).2.2) :
    r = .banner .started ∨
      ∃ error, (setup.openSink world).2.2 = some error ∧ r = .banner (.fallback error) := by
  rw [start_records] at hr
  obtain ⟨-, hr⟩ := List.mem_ite_nil_right.1 hr
  rcases List.mem_append.1 hr with hr | hr
  · obtain ⟨error, he, rfl⟩ := Option.map_eq_some_iff.1 (Option.mem_toList.1 hr)
    exact Or.inr ⟨error, he, rfl⟩
  · obtain ⟨-, hr⟩ := List.mem_ite_nil_right.1 hr
    exact Or.inl (List.mem_singleton.1 hr)

@[simp] theorem start_config : (setup.start now world).1.config = setup.config.sanitized := by
  rcases h : setup.config.enabled with _ | _
  · rw [start_of_disabled _ _ _ h]; rfl
  · rw [start_of_enabled _ _ _ h, Session.emit_config]; rfl

theorem start_ready : (setup.start now world).1.ready = setup.config.enabled := by
  rcases h : setup.config.enabled with _ | _
  · rw [start_of_disabled _ _ _ h]; rfl
  · rw [start_of_enabled _ _ _ h, Session.emit_ready]; rfl

theorem start_isSome : (setup.start now world).1.writer.isSome = setup.config.enabled := by
  rcases h : setup.config.enabled with _ | _
  · rw [start_of_disabled _ _ _ h]; rfl
  · rw [start_of_enabled _ _ _ h, Session.emit_isSome]; rfl

theorem start_fallback : (setup.start now world).1.fallback =
    if setup.config.enabled then (setup.openSink world).2.2 else none := by
  rcases h : setup.config.enabled with _ | _
  · rw [start_of_disabled _ _ _ h]; rfl
  · rw [start_of_enabled _ _ _ h, Session.emit_fallback]; rfl

theorem start_sampler :
    (setup.start now world).1.sampler = .ofStride setup.config.sanitized.stride := by
  rcases h : setup.config.enabled with _ | _
  · rw [start_of_disabled _ _ _ h]; rfl
  · rw [start_of_enabled _ _ _ h, Session.emit_sampler]; rfl

theorem start_files : (setup.start now world).1.files = .empty := by
  rcases h : setup.config.enabled with _ | _
  · rw [start_of_disabled _ _ _ h]; rfl
  · rw [start_of_enabled _ _ _ h, Session.emit_files]; rfl

/-- Tracing is on at the start exactly under eager options, at depth zero. -/
theorem start_activation : (setup.start now world).1.activation =
    if setup.config.eager then ⟨true, 0⟩ else .off := by
  rcases h : setup.config.enabled with _ | _
  · rw [start_of_disabled _ _ _ h, Config.eager, h]; rfl
  · rw [start_of_enabled _ _ _ h, Session.emit_activation]; rfl

theorem start_epoch : (setup.start now world).1.epoch =
    if setup.config.eager then .startingAt now else .unset := by
  rcases h : setup.config.enabled with _ | _
  · rw [start_of_disabled _ _ _ h, Config.eager, h]; rfl
  · rw [start_of_enabled _ _ _ h, Session.emit_epoch]
    show (if setup.config.eager then _ else _ : Writer).epoch = _
    split_ifs <;> rfl

end Setup

end RealModeTrace
