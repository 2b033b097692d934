import RealModeTrace.Proofs.Session.Categories
import RealModeTrace.Proofs.Session.Output

/-!
# Two runs

Two sessions are told the same at the same clock readings, under options that differ.

* `Matching`: two histories that differ in the options alone, which are related;
* `Session.Alike`: two sessions that agree on readiness, activation, epoch and handles; calls keep
  them alike as long as their options agree on the life cycle;
* `Session.Reduced`: two sessions that moreover have the same options, up to one category that the
  second leaves out; calls keep them so;
* `Setup.categories_independent`: a category that is switched off takes its own lines away and
  nothing else, and no choice of categories matters to the life cycle.
-/

namespace RealModeTrace

/-! ### Matching histories -/

/-- Two calls are the same, or give options that are related. -/
inductive Session.Call.Matches (R : Config → Config → Prop) : Call → Call → Prop
  | event (host : Host) (e : Event) : Matches R (.event host e) (.event host e)
  | update {c d : Config} (hr : R c d) : Matches R (.update c) (.update d)
  | shutdown : Matches R .shutdown .shutdown

theorem Session.Call.Matches.mono {R Q : Config → Config → Prop} {call other : Call}
    (hm : call.Matches R other) (hrq : ∀ c d, R c d → Q c d) : call.Matches Q other := by
  cases hm with
  | event host e => exact .event host e
  | update hr => exact .update (hrq _ _ hr)
  | shutdown => exact .shutdown

theorem Session.Call.Matches.category?_eq {R : Config → Config → Prop} {call other : Call}
    (hm : call.Matches R other) : other.category? = call.category? := by
  cases hm <;> rfl

/-- Two histories are the same up to options, which are related. -/
def Matching (R : Config → Config → Prop) : History → History → Prop :=
  List.Forall₂ fun entry other => entry.1 = other.1 ∧ entry.2.Matches R other.2

namespace Session

/-! ### Sessions that are alike -/

/-- The sessions agree on all that loads and ends of programs depend on, and on the open handles. -/
structure Alike (s t : Session) : Prop where
  config : s.config.SameLifecycle t.config
  ready_eq : t.ready = s.ready
  activation_eq : t.activation = s.activation
  console_eq : t.onConsole? = s.onConsole?
  epoch_eq : t.epoch = s.epoch
  handles_eq : t.files.handles = s.files.handles

variable {s t : Session}

theorem Alike.isActive_eq (h : s.Alike t) : t.isActive = s.isActive := by
  rw [isActive, isActive, h.activation_eq]

theorem Alike.isSome_eq (h : s.Alike t) : t.writer.isSome = s.writer.isSome := by
  rw [← isSome_onConsole?, h.console_eq, isSome_onConsole?]

theorem Alike.elapsed_eq (h : s.Alike t) (now : Duration) : t.elapsed now = s.elapsed now := by
  rw [Session.elapsed_eq, Session.elapsed_eq, h.epoch_eq]

theorem Alike.stamp_eq (h : s.Alike t) (now : Duration) : t.stamp now = s.stamp now :=
  funext fun _ => congrArg (Record.timed · _) (h.elapsed_eq now)

theorem Alike.stampAll_eq (h : s.Alike t) (clock : Readings) :
    t.stampAll clock = s.stampAll clock :=
  stampAll_congr h.stamp_eq clock

theorem Alike.traces_eq (h : s.Alike t) (category : Bool) :
    t.traces category = s.traces category := by
  rw [traces, traces, h.isActive_eq, h.isSome_eq]

/-- An event keeps sessions alike, whatever each of them writes. -/
theorem Alike.observe (h : s.Alike t) (clock : Readings) (host : Host) (event : Event) :
    (s.observe clock host event).1.Alike (t.observe clock host event).1 where
  config := by simpa using h.config
  ready_eq := by simpa using h.ready_eq
  activation_eq := by
    rw [observe_activation, observe_activation, h.ready_eq, h.isSome_eq, h.isActive_eq,
      h.activation_eq, h.config.loadActivates_eq]
  console_eq := by simpa using h.console_eq
  epoch_eq := by
    simp only [observe_epoch, h.ready_eq, h.isSome_eq, h.isActive_eq, h.epoch_eq,
      h.config.loadActivates_eq]
  handles_eq := by
    rw [observe_files, observe_files]
    cases event with
    | handleOpened handle filename => exact congrArg (·.record handle filename) h.handles_eq
    | fileClosed handle => exact congrArg (·.forget handle) h.handles_eq
    | readIssued handle requested segment offset =>
      simp only
      split_ifs <;> exact h.handles_eq
    | readCompleted handle actual buffer =>
      simp only
      split_ifs <;> exact h.handles_eq
    | _ => exact h.handles_eq

theorem Alike.emit (h : s.Alike t) (world world' : World) (records records' : List Record) :
    (s.emit world records).1.Alike (t.emit world' records').1 where
  config := by simpa using h.config
  ready_eq := by simpa using h.ready_eq
  activation_eq := by simpa using h.activation_eq
  console_eq := by simpa using h.console_eq
  epoch_eq := by simpa using h.epoch_eq
  handles_eq := by simpa using h.handles_eq

theorem Alike.update (h : s.Alike t) (now : Duration) {c d : Config} (hcd : c.SameLifecycle d) :
    (s.update now c).Alike (t.update now d) where
  config := by simpa using hcd.sanitized
  ready_eq := by simpa using h.ready_eq
  activation_eq := by
    rw [update_activation, update_activation, h.ready_eq, h.activation_eq, hcd.eager_eq]
  console_eq := by simpa using h.console_eq
  epoch_eq := by
    rw [update_epoch, update_epoch, h.ready_eq, h.isActive_eq, h.isSome_eq, h.epoch_eq,
      hcd.eager_eq]
  handles_eq := by simpa using h.handles_eq

theorem Alike.shutdown (h : s.Alike t) (world world' : World) (clock : Readings) :
    (s.step world clock .shutdown).1.Alike (t.step world' clock .shutdown).1 := by
  rw [step_shutdown_fst, step_shutdown_fst]
  exact ⟨h.config, rfl, rfl, rfl, rfl, rfl⟩

/-- **The same call keeps sessions alike.** -/
theorem Alike.step (h : s.Alike t) (world world' : World) (clock : Readings) {call other : Call}
    (hm : call.Matches Config.SameLifecycle other) :
    (s.step world clock call).1.Alike (t.step world' clock other).1 := by
  cases hm with
  | event host e =>
    rw [step_event_fst, step_event_fst]
    exact (h.observe clock host e).emit ..
  | update hcd => exact h.update (clock.nth 0) hcd
  | shutdown => exact h.shutdown world world' clock

/-- Calls outside the categories make the same records. -/
theorem Alike.answer_eq (h : s.Alike t) (hs : s.Sound) (ht : t.Sound) (clock : Readings)
    {call other : Call} (hm : call.Matches Config.SameLifecycle other)
    (hcategory : call.category? = none) : t.answer (clock, other) = s.answer (clock, call) := by
  cases hm with
  | event host e =>
    cases e with
    | programExec filename cmdline =>
      rw [hs.answer_load, ht.answer_load, h.isActive_eq, h.ready_eq, h.stamp_eq,
        h.config.loadActivates_eq]
    | programTerminated exitCode =>
      rw [hs.answer_exit, ht.answer_exit, h.isActive_eq, h.activation_eq, h.stamp_eq]
    | programStayedResident exitCode =>
      show (t.observe clock host _).2 = (s.observe clock host _).2
      simp only [observe_snd, h.traces_eq, h.stamp_eq, h.activation_eq]
    | handleOpened _ _ | setRegisters _ | poke _ _ _ | setBatch _ => rfl
    | _ => cases hcategory
  | update hcd => rfl
  | shutdown =>
    show t.closingRecords = s.closingRecords
    rw [closingRecords_eq, closingRecords_eq, h.console_eq]

/-! ### A session with one category less -/

/-- The sessions are alike, and their options are the same but for one category, which the second
leaves out. What is kept for another category is the same as well. -/
structure Reduced (category : Category) (s t : Session) : Prop extends Alike s t where
  config_eq : t.config = s.config.without category
  files_eq : category ≠ .fileIo → t.files = s.files
  sampler_eq : category ≠ .instructions → t.sampler = s.sampler

variable {category : Category}

theorem Reduced.traces_includes (h : Reduced category s t) (k : Category) :
    t.traces (t.config.includes k) = (s.traces (s.config.includes k) && decide (k ≠ category)) := by
  rw [h.traces_eq, h.config_eq, Config.includes_without]
  simp only [traces]
  cases s.isActive <;> cases s.config.includes k <;> cases s.writer.isSome <;> simp

theorem Reduced.traces_eq_of_ne (h : Reduced category s t) {k : Category} (hne : k ≠ category) :
    t.traces (t.config.includes k) = s.traces (s.config.includes k) := by
  rw [h.traces_includes, decide_eq_true hne, Bool.and_true]

/-- What is observed of another category is observed by both sessions. -/
theorem Reduced.observe_snd (h : Reduced category s t) (clock : Readings) (host : Host)
    {event : Event} {k : Category} (hk : event.category? = some k) (hne : k ≠ category) :
    (t.observe clock host event).2 = (s.observe clock host event).2 := by
  have htraces := h.traces_eq_of_ne hne
  rw [Session.observe_snd, Session.observe_snd, h.stamp_eq, h.stampAll_eq]
  cases event with
  | instructionFetched cs ip =>
    obtain rfl := Option.some.inj hk
    replace htraces : t.traces t.config.instructions = s.traces s.config.instructions := htraces
    simp only [htraces, h.sampler_eq hne.symm]
  | interruptInvoked number =>
    obtain rfl := Option.some.inj hk
    replace htraces : t.traces t.config.interrupts = s.traces s.config.interrupts := htraces
    have hexcluded : t.config.excludedInterrupts = s.config.excludedInterrupts := by
      rw [h.config_eq, Config.excludedInterrupts_without]
    simp only [htraces, hexcluded]
  | videoModeChanging oldMode newMode =>
    obtain rfl := Option.some.inj hk
    replace htraces : t.traces t.config.videoModes = s.traces s.config.videoModes := htraces
    simp only [htraces]
  | fileCreated _ _ | fileOpened _ _ | fileClosed _ | readIssued _ _ _ _ | readCompleted _ _ _ =>
    obtain rfl := Option.some.inj hk
    replace htraces : t.traces t.config.fileIo = s.traces s.config.fileIo := htraces
    have hlimit : t.config.dumpLimit = s.config.dumpLimit := by
      rw [h.config_eq, Config.dumpLimit_without]
    simp only [htraces, h.files_eq hne.symm, hlimit]
  | _ => cases hk

/-- The records of the category are missing, and all others are the same. -/
theorem Reduced.answer_eq (h : Reduced category s t) (hs : s.Sound) (ht : t.Sound)
    (clock : Readings) {call other : Call}
    (hm : call.Matches (fun c d => d = c.without category) other) :
    t.answer (clock, other) =
      if call.category? = some category then [] else s.answer (clock, call) := by
  rcases hcategory : call.category? with _ | k
  · rw [if_neg (Option.some_ne_none category).symm]
    refine h.toAlike.answer_eq hs ht clock (hm.mono ?_) hcategory
    rintro c d rfl
    exact c.sameLifecycle_without category
  · cases hm with
    | event host e =>
      split_ifs with hk
      · obtain rfl := Option.some.inj hk
        refine t.observe_snd_eq_nil clock host hcategory ?_
        rw [h.traces_includes, decide_eq_false (not_not_intro rfl), Bool.and_false]
      · exact h.observe_snd clock host hcategory fun heq => hk (congrArg some heq)
    | _ => cases hcategory

theorem Reduced.observe_files (h : Reduced category s t) (clock : Readings) (host : Host)
    (event : Event) (hne : category ≠ .fileIo) :
    (t.observe clock host event).1.files = (s.observe clock host event).1.files := by
  have htraces : t.traces t.config.fileIo = s.traces s.config.fileIo := h.traces_eq_of_ne hne.symm
  have hlimit : t.config.dumpLimit = s.config.dumpLimit := by
    rw [h.config_eq, Config.dumpLimit_without]
  rw [Session.observe_files, Session.observe_files, h.files_eq hne, htraces, hlimit]

theorem Reduced.observe_sampler (h : Reduced category s t) (clock : Readings) (host : Host)
    (event : Event) (hne : category ≠ .instructions) :
    (t.observe clock host event).1.sampler = (s.observe clock host event).1.sampler := by
  have htraces : t.traces t.config.instructions = s.traces s.config.instructions :=
    h.traces_eq_of_ne hne.symm
  rw [Session.observe_sampler, Session.observe_sampler, h.sampler_eq hne, htraces]

/-- **The same call keeps a session reduced by the category.** -/
theorem Reduced.step (h : Reduced category s t) (world world' : World) (clock : Readings)
    {call other : Call} (hm : call.Matches (fun c d => d = c.without category) other) :
    Reduced category (s.step world clock call).1 (t.step world' clock other).1 where
  toAlike := by
    refine h.toAlike.step world world' clock (hm.mono ?_)
    rintro c d rfl
    exact c.sameLifecycle_without category
  config_eq := by
    rw [step_config, step_config]
    cases hm with
    | update hcd =>
      subst hcd
      exact Config.sanitized_without _ category
    | _ => exact h.config_eq
  files_eq hne := by
    cases hm with
    | event host e =>
      rw [step_event_fst, step_event_fst, emit_files, emit_files, h.observe_files clock host e hne]
    | update hcd =>
      rw [step_update_fst, step_update_fst, update_files, update_files, h.files_eq hne]
    | shutdown =>
      rw [step_shutdown_fst, step_shutdown_fst]
  sampler_eq hne := by
    cases hm with
    | event host e =>
      rw [step_event_fst, step_event_fst, emit_sampler, emit_sampler,
        h.observe_sampler clock host e hne]
    | update hcd =>
      subst hcd
      rw [step_update_fst, step_update_fst, update_sampler, update_sampler, h.sampler_eq hne,
        Config.sanitized_without, Config.stride_without]
    | shutdown =>
      rw [step_shutdown_fst, step_shutdown_fst, h.sampler_eq hne]

/-! ### Whole runs -/

/-- Sessions stay alike through histories whose options agree on the life cycle, and the records
that belong to no category are the same. -/
theorem Alike.run (h : s.Alike t) (hs : s.Sound) (ht : t.Sound) (world world' : World)
    {calls others : History} (hm : Matching Config.SameLifecycle calls others) :
    (s.after world calls).Alike (t.after world' others) ∧
      (t.trace world' others).filter (·.category? = none) =
        (s.trace world calls).filter (·.category? = none) := by
  induction hm generalizing s t world world' with
  | nil => exact ⟨h, rfl⟩
  | @cons entry other calls others hentry _ ih =>
    obtain ⟨clock, call⟩ := entry
    obtain ⟨clock', call'⟩ := other
    obtain ⟨rfl, hm⟩ : clock = clock' ∧ call.Matches Config.SameLifecycle call' := hentry
    obtain ⟨halike, htrace⟩ := ih (h.step world world' clock hm) (hs.step world clock call)
      (ht.step world' clock call') (s.step world clock call).2.1 (t.step world' clock call').2.1
    refine ⟨halike, ?_⟩
    have hanswer : (t.answer (clock, call')).filter (·.category? = none) =
        (s.answer (clock, call)).filter (·.category? = none) := by
      rw [hs.filter_answer _ fun k => k = none, ht.filter_answer _ fun k => k = none,
        hm.category?_eq]
      split_ifs with hcategory
      · exact h.answer_eq hs ht clock hm (of_decide_eq_true hcategory)
      · rfl
    rw [trace_cons, trace_cons, List.filter_append, List.filter_append, step_records, step_records,
      hanswer, htrace]

/-- A session that is reduced by a category makes the same records through matching histories, but
for those of the category. -/
theorem Reduced.run (h : Reduced category s t) (hs : s.Sound) (ht : t.Sound) (world world' : World)
    {calls others : History} (hm : Matching (fun c d => d = c.without category) calls others) :
    t.trace world' others = (s.trace world calls).filter (·.category? ≠ some category) := by
  induction hm generalizing s t world world' with
  | nil => rfl
  | @cons entry other calls others hentry _ ih =>
    obtain ⟨clock, call⟩ := entry
    obtain ⟨clock', call'⟩ := other
    obtain ⟨rfl, hm⟩ : clock = clock' ∧ call.Matches _ call' := hentry
    have htrace := ih (h.step world world' clock hm) (hs.step world clock call)
      (ht.step world' clock call') (s.step world clock call).2.1 (t.step world' clock call').2.1
    rw [trace_cons, trace_cons, List.filter_append, step_records, step_records, htrace,
      h.answer_eq hs ht clock hm, hs.filter_answer _ fun k => k ≠ some category]
    split_ifs <;> simp_all

end Session

namespace Setup

/-- The sinks of two sessions are of the same kind, and the log file could be opened for both, or
for neither with the same error. -/
structure SameSinks (setup setup' : Setup) (world world' : World) : Prop where
  console_eq : (setup'.openSink world').1.isConsole = (setup.openSink world).1.isConsole
  fallback_eq : (setup'.openSink world').2.2 = (setup.openSink world).2.2

variable {setup setup' : Setup} {world world' : World} (now : Duration)

/-- Sessions whose options agree on the life cycle start alike, with the same records. -/
theorem SameSinks.start (hsinks : setup.SameSinks setup' world world')
    (hconfig : setup.config.SameLifecycle setup'.config) :
    (setup.start now world).1.Alike (setup'.start now world').1 ∧
      (setup'.start now world').2.2 = (setup.start now world).2.2 := by
  refine ⟨⟨?_, ?_, ?_, ?_, ?_, ?_⟩, ?_⟩
  · rw [start_config, start_config]
    exact hconfig.sanitized
  · rw [start_ready, start_ready, hconfig.enabled_eq]
  · rw [start_activation, start_activation, hconfig.eager_eq]
  · rw [onConsole?_start, onConsole?_start, hconfig.enabled_eq, hsinks.console_eq]
  · rw [start_epoch, start_epoch, hconfig.eager_eq]
  · rw [start_files, start_files]
  · rw [start_records, start_records, hconfig.enabled_eq, hconfig.eager_eq, hsinks.fallback_eq]

theorem SameSinks.start_reduced (hsinks : setup.SameSinks setup' world world') {category : Category}
    (hconfig : setup'.config = setup.config.without category) :
    Session.Reduced category (setup.start now world).1 (setup'.start now world').1 where
  toAlike := (hsinks.start now (hconfig ▸ setup.config.sameLifecycle_without category)).1
  config_eq := by rw [start_config, start_config, hconfig, Config.sanitized_without]
  files_eq _ := by rw [start_files, start_files]
  sampler_eq _ := by
    rw [start_sampler, start_sampler, hconfig, Config.sanitized_without, Config.stride_without]

/-- No record of the start belongs to a category. -/
theorem category?_of_mem_start {r : Record} (hr : r ∈ (setup.start now world).2.2) :
    r.category? = none := by
  rcases setup.eq_banner_of_mem_start now world hr with rfl | ⟨error, -, rfl⟩ <;> rfl

/-- **Categories are independent.** Take two runs with the same calls, machines and clock readings,
up to the options that are given at the start and later. The sinks of both runs are of one kind, the
console or not, and the log file was opened for both, or failed to open with the same error for
both.

If the options are the same but for one category, which the second run leaves out throughout, it
makes the records of the first run without those of the category, and every record of the first run
is of the category of the call that made it.

If the options agree on the life cycle, then after every history the sessions agree on readiness,
activation, depth, the time since the epoch and the open handles, and the records that belong to no
category are the same. -/
theorem categories_independent (hsinks : setup.SameSinks setup' world world') {h h' : History} :
    (∀ category, setup'.config = setup.config.without category →
      Matching (fun c d => d = c.without category) h h' →
      setup'.trace now world' h' =
          (setup.trace now world h).filter (·.category? ≠ some category) ∧
        setup'.lines now world' h' =
          ((setup.trace now world h).filter (·.category? ≠ some category)).map Record.text ∧
        ∀ before entry, before ++ [entry] <+: h →
          ∀ r ∈ (setup.after now world before).answer entry, r.category? = entry.2.category?) ∧
    (setup.config.SameLifecycle setup'.config → Matching Config.SameLifecycle h h' →
      (setup'.after now world' h').ready = (setup.after now world h).ready ∧
        (setup'.after now world' h').isActive = (setup.after now world h).isActive ∧
        (setup'.after now world' h').activation.depth =
          (setup.after now world h).activation.depth ∧
        (∀ reading : Duration, (setup'.after now world' h').elapsed reading =
          (setup.after now world h).elapsed reading) ∧
        (setup'.after now world' h').files.handles = (setup.after now world h).files.handles ∧
        (setup'.trace now world' h').filter (·.category? = none) =
          (setup.trace now world h).filter (·.category? = none)) := by
  have hs := setup.sound_start now world
  have ht := setup'.sound_start now world'
  constructor
  · intro category hconfig hm
    have hstart := (hsinks.start now (hconfig ▸ setup.config.sameLifecycle_without category)).2
    have htrace : setup'.trace now world' h' =
        (setup.trace now world h).filter (·.category? ≠ some category) := by
      have hnone : (setup.start now world).2.2.filter (·.category? ≠ some category) =
          (setup.start now world).2.2 := by
        refine List.filter_eq_self.2 fun r hr => ?_
        rw [category?_of_mem_start now hr]
        rfl
      rw [trace, trace, List.filter_append, hnone, hstart,
        (hsinks.start_reduced now hconfig).run hs ht _ _ hm]
    refine ⟨htrace, by rw [lines, htrace], fun before entry _ r hr => ?_⟩
    exact (setup.sound_after now world before).category?_of_mem_answer hr
  · intro hconfig hm
    obtain ⟨halike, hstart⟩ := hsinks.start now hconfig
    obtain ⟨hafter, htrace⟩ := halike.run hs ht (setup.start now world).2.1
      (setup'.start now world').2.1 hm
    refine ⟨hafter.ready_eq, hafter.isActive_eq, congrArg Activation.depth hafter.activation_eq,
      hafter.elapsed_eq, hafter.handles_eq, ?_⟩
    rw [trace, trace, List.filter_append, List.filter_append, hstart, htrace]

/-- Eager options, with file lines or without. -/
def eagerOptions (fileIo : Bool) : Config :=
  { enabled := true, waitForLoad := false, fileIo }

/-- A session under eager options that is captured in memory. -/
def captured (fileIo : Bool) : Setup where
  config := eagerOptions fileIo
  sink := some .capture

/-- A read is issued, the options are given again, and the video mode changes before the read is
done. -/
def readAndSwitch (fileIo : Bool) : History :=
  [(1, .event .blank (.readIssued 5 16 0 0)), (2, .update (eagerOptions fileIo)),
    (3, .event .blank (.videoModeChanging 3 19)), (4, .event .blank (.readCompleted 5 2 0))]

/-- The law at a run with file lines and one without. -/
theorem categories_independent_readAndSwitch :
    (captured true).SameSinks (captured false) {} {} ∧
      (captured false).config = (captured true).config.without .fileIo ∧
      (captured true).config.SameLifecycle (captured false).config ∧
      Matching (fun c d => d = c.without .fileIo) (readAndSwitch true) (readAndSwitch false) ∧
      Matching Config.SameLifecycle (readAndSwitch true) (readAndSwitch false) ∧
      (captured false).trace 0 {} (readAndSwitch false) =
        ((captured true).trace 0 {} (readAndSwitch true)).filter (·.category? ≠ some .fileIo) ∧
      ((captured false).after 0 {} (readAndSwitch false)).activation.depth =
        ((captured true).after 0 {} (readAndSwitch true)).activation.depth := by
  have hsinks : (captured true).SameSinks (captured false) {} {} := ⟨rfl, rfl⟩
  have hsame : (eagerOptions true).SameLifecycle (eagerOptions false) := ⟨rfl, rfl, rfl, rfl⟩
  have hless : Matching (fun c d => d = c.without .fileIo) (readAndSwitch true)
      (readAndSwitch false) :=
    .cons ⟨rfl, .event ..⟩ (.cons ⟨rfl, .update rfl⟩ (.cons ⟨rfl, .event ..⟩
      (.cons ⟨rfl, .event ..⟩ .nil)))
  have hlike : Matching Config.SameLifecycle (readAndSwitch true) (readAndSwitch false) :=
    .cons ⟨rfl, .event ..⟩ (.cons ⟨rfl, .update hsame⟩ (.cons ⟨rfl, .event ..⟩
      (.cons ⟨rfl, .event ..⟩ .nil)))
  obtain ⟨htrace, -⟩ := (categories_independent 0 hsinks).1 .fileIo rfl hless
  obtain ⟨-, -, hdepth, -⟩ := (categories_independent 0 hsinks).2 hsame hlike
  exact ⟨hsinks, rfl, hsame, hless, hlike, htrace, hdepth⟩

end Setup

end RealModeTrace
