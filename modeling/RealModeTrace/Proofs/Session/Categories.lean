import RealModeTrace.Proofs.Session.Programs

/-!
# Categories of events

Four categories of events have an option each that switches their lines off. Loads and ends of
programs, and what the trace says about itself, belong to none of them.

* `Category`, `Config.without`: a category, and the options with it switched off;
* `Session.Call.category?`, `Record.category?`: the category of a call and of a record;
* `Session.Sound.category?_of_mem_answer`: the records of a call are of its category;
* `Config.SameLifecycle`: options that agree on all that loads and ends of programs depend on.
-/

namespace RealModeTrace

/-- Events that the options switch on and off together. -/
inductive Category
  | instructions
  | interrupts
  | fileIo
  | videoModes
  deriving DecidableEq, Repr

/-- The category of an event. That a handle was opened is remembered and makes no line. -/
def Event.category? : Event → Option Category
  | .instructionFetched .. => some .instructions
  | .interruptInvoked .. => some .interrupts
  | .fileCreated .. | .fileOpened .. | .fileClosed .. | .readIssued .. | .readCompleted .. =>
    some .fileIo
  | .videoModeChanging .. => some .videoModes
  | _ => none

/-- The category of a call. -/
def Session.Call.category? : Call → Option Category
  | .event _ e => e.category?
  | _ => none

/-- The category of what was observed. -/
def Payload.category? : Payload → Option Category
  | .instruction .. => some .instructions
  | .interrupt .. => some .interrupts
  | .fileCreate .. | .fileOpen .. | .fileClose .. | .fileRead .. | .fileReadResult ..
  | .fileData .. => some .fileIo
  | .videoMode .. => some .videoModes
  | .exec .. | .activated | .terminated .. | .stayedResident .. => none

/-- The category of a record. Banners have none. -/
def Record.category? : Record → Option Category
  | .timed _ payload => payload.category?
  | .banner _ => none

/-! ### Records -/

/-- **The records of a call are of its category.** -/
theorem Session.Sound.category?_of_mem_answer {s : Session} (hs : s.Sound)
    {entry : Readings × Session.Call} {r : Record} (hr : r ∈ s.answer entry) :
    r.category? = entry.2.category? := by
  obtain ⟨clock, call⟩ := entry
  cases call with
  | event host event =>
    cases event with
    | programExec filename cmdline =>
      rw [hs.answer_load] at hr
      split_ifs at hr
      · rw [List.mem_singleton.1 hr]
        rfl
      · rcases List.mem_pair.1 hr with rfl | rfl <;> rfl
      · exact absurd hr List.not_mem_nil
    | programTerminated exitCode =>
      rw [hs.answer_exit] at hr
      split_ifs at hr
      · rcases List.mem_pair.1 hr with rfl | rfl <;> rfl
      · rw [List.mem_singleton.1 hr]
        rfl
      · exact absurd hr List.not_mem_nil
    | handleOpened _ _ | setRegisters _ | poke _ _ _ | setBatch _ =>
      exact absurd hr List.not_mem_nil
    | readCompleted handle actual buffer =>
      replace hr : r ∈ (s.observe clock host _).2 := hr
      rw [observe_snd] at hr
      obtain ⟨-, hr⟩ := List.mem_ite_nil_right.1 hr
      obtain ⟨n, payload, hp, rfl⟩ := mem_stampAll hr
      rcases FileLog.eq_of_mem_completeRead hp with rfl | ⟨bytes, rfl⟩ <;> rfl
    | _ =>
      replace hr : r ∈ (s.observe clock host _).2 := hr
      rw [observe_snd] at hr
      obtain ⟨-, hr⟩ := List.mem_ite_nil_right.1 hr
      rw [List.mem_singleton.1 hr]
      rfl
  | update c => exact absurd hr List.not_mem_nil
  | shutdown =>
    rw [eq_of_mem_closingRecords hr]
    rfl

/-- The records of a call are of one category: a choice of categories takes all of them or none. -/
theorem Session.Sound.filter_answer {s : Session} (hs : s.Sound) (entry : Readings × Session.Call)
    (p : Option Category → Bool) :
    (s.answer entry).filter (fun r => p r.category?) =
      if p entry.2.category? = true then s.answer entry else [] := by
  split_ifs with hp
  · refine List.filter_eq_self.2 fun r hr => ?_
    rw [hs.category?_of_mem_answer hr]
    exact hp
  · refine List.filter_eq_nil_iff.2 fun r hr => ?_
    rw [hs.category?_of_mem_answer hr]
    exact hp

/-! ### Options -/

namespace Config

/-- The lines of a category are written. -/
def includes (c : Config) : Category → Bool
  | .instructions => c.instructions
  | .interrupts => c.interrupts
  | .fileIo => c.fileIo
  | .videoModes => c.videoModes

/-- The options with a category switched off. -/
def without (c : Config) : Category → Config
  | .instructions => { c with instructions := false }
  | .interrupts => { c with interrupts := false }
  | .fileIo => { c with fileIo := false }
  | .videoModes => { c with videoModes := false }

theorem includes_without (c : Config) (category other : Category) :
    (c.without category).includes other = (c.includes other && decide (other ≠ category)) := by
  cases category <;> cases other <;> simp [without, includes]

@[simp] theorem excludedInterrupts_without (c : Config) (category : Category) :
    (c.without category).excludedInterrupts = c.excludedInterrupts := by cases category <;> rfl

@[simp] theorem dumpLimit_without (c : Config) (category : Category) :
    (c.without category).dumpLimit = c.dumpLimit := by cases category <;> rfl

@[simp] theorem stride_without (c : Config) (category : Category) :
    (c.without category).stride = c.stride := by cases category <;> rfl

theorem sanitized_without (c : Config) (category : Category) :
    (c.without category).sanitized = c.sanitized.without category := by cases category <;> rfl

/-- The options agree on the switches that decide when tracing is on, and on the log. -/
structure SameLifecycle (c d : Config) : Prop where
  enabled_eq : d.enabled = c.enabled
  logfile_eq : d.logfile = c.logfile
  waitForLoad_eq : d.waitForLoad = c.waitForLoad
  interactiveOnly_eq : d.interactiveOnly = c.interactiveOnly

theorem sameLifecycle_without (c : Config) (category : Category) :
    c.SameLifecycle (c.without category) := by
  cases category <;> exact ⟨rfl, rfl, rfl, rfl⟩

theorem SameLifecycle.sanitized {c d : Config} (h : c.SameLifecycle d) :
    c.sanitized.SameLifecycle d.sanitized :=
  ⟨h.enabled_eq, h.logfile_eq, h.waitForLoad_eq, h.interactiveOnly_eq⟩

theorem SameLifecycle.eager_eq {c d : Config} (h : c.SameLifecycle d) : d.eager = c.eager := by
  rw [eager, eager, h.enabled_eq, h.waitForLoad_eq]

theorem SameLifecycle.loadActivates_eq {c d : Config} (h : c.SameLifecycle d) (host : Host) :
    Session.loadActivates d host = Session.loadActivates c host := by
  rw [Session.loadActivates, Session.loadActivates, h.waitForLoad_eq, h.interactiveOnly_eq]

end Config

/-- An event of a category that is not traced makes no record. -/
theorem Session.observe_snd_eq_nil (s : Session) (clock : Readings) (host : Host) {event : Event}
    {category : Category} (hcategory : event.category? = some category)
    (hoff : s.traces (s.config.includes category) = false) :
    (s.observe clock host event).2 = [] := by
  rw [observe_snd]
  cases event with
  | instructionFetched _ _ | interruptInvoked _ | videoModeChanging _ _ | fileCreated _ _
  | fileOpened _ _ | fileClosed _ | readIssued _ _ _ _ | readCompleted _ _ _ =>
    obtain rfl := Option.some.inj hcategory
    dsimp only [Config.includes] at hoff
    simp only [hoff, Bool.false_and, Bool.false_eq_true, if_false]
  | _ => cases hcategory

end RealModeTrace
