import RealModeTrace.Cli.Replay
import RealModeTrace.Proofs.Machine.Memory
import RealModeTrace.Proofs.Session.History

/-!
# Where the events of a script go

An event changes the machine of a replay or is a call of the tracer, never both. A replay does what
calling the tracer directly does, against the machine as it stands at each point of the script.

* `Session.Enters`: the entry point of an event, called with its fields;
* `Event.Routed`: where an event goes; `Event.routed`: every event goes there;
* `Session.Calls`: entry points called one after another; `Session.calls_iff`: there is one way to
  do that, and it is the run of the session;
* `Script.machineAfter`, `Script.tracerCalls`: the machine and the direct calls that a script comes
  to;
* `Replay.Follows`, `Replay.follows`: a replay has that machine, and has made those calls.
-/

namespace RealModeTrace

/-! ### One event -/

namespace Session

/-- The entry point of an event, with the fields of the event as its arguments. Only those that look
at the machine get the host. -/
inductive Enters (s : Session) (clock : Readings) (host : Host) :
    Event → Session × List Record → Prop
  | instructionFetched (cs ip : UInt16) :
    Enters s clock host (.instructionFetched cs ip) (s.instructionFetched (clock.nth 0) host cs ip)
  | interruptInvoked (number : UInt8) :
    Enters s clock host (.interruptInvoked number) (s.interruptInvoked (clock.nth 0) host number)
  | fileCreated (filename : String) (attributes : UInt16) :
    Enters s clock host (.fileCreated filename attributes)
      (s.fileCreated (clock.nth 0) filename attributes)
  | fileOpened (filename : String) (mode : UInt8) :
    Enters s clock host (.fileOpened filename mode) (s.fileOpened (clock.nth 0) filename mode)
  | handleOpened (handle : UInt16) (filename : String) :
    Enters s clock host (.handleOpened handle filename) (s.handleOpened handle filename)
  | fileClosed (handle : UInt16) :
    Enters s clock host (.fileClosed handle) (s.fileClosed (clock.nth 0) handle)
  | readIssued (request : ReadRequest) :
    Enters s clock host
      (.readIssued request.handle request.requested request.segment request.offset)
      (s.readIssued (clock.nth 0) request)
  | readCompleted (handle actual : UInt16) (buffer : UInt32) :
    Enters s clock host (.readCompleted handle actual buffer)
      (s.readCompleted clock host handle actual buffer)
  | programExec (filename : String) (cmdline : Option String) :
    Enters s clock host (.programExec filename cmdline) (s.programExec clock host filename cmdline)
  | programTerminated (exitCode : UInt8) :
    Enters s clock host (.programTerminated exitCode) (s.programTerminated (clock.nth 0) exitCode)
  | programStayedResident (exitCode : UInt8) :
    Enters s clock host (.programStayedResident exitCode)
      (s.programStayedResident (clock.nth 0) exitCode)
  | videoModeChanging (oldMode newMode : UInt16) :
    Enters s clock host (.videoModeChanging oldMode newMode)
      (s.videoModeChanging (clock.nth 0) oldMode newMode)

theorem dispatch_eq_some_iff {s : Session} {clock : Readings} {host : Host} {event : Event}
    {result : Session × List Record} :
    s.dispatch clock host event = some result ↔ s.Enters clock host event result := by
  constructor
  · intro h
    cases event with
    | readIssued handle requested segment offset =>
      obtain rfl := Option.some.inj h
      exact .readIssued ⟨handle, requested, segment, offset⟩
    | setRegisters _ | poke _ _ _ | setBatch _ => cases h
    | _ =>
      obtain rfl := Option.some.inj h
      constructor
  · rintro ⟨⟩ <;> rfl

theorem isNone_dispatch (s : Session) (clock : Readings) (host : Host) (event : Event) :
    (s.dispatch clock host event).isNone = event.isStaging := by
  cases event <;> rfl

end Session

namespace Event

theorem isSome_applyTo (event : Event) (m : FlatMachine) :
    (event.applyTo m).isSome = event.isStaging := by
  cases event with
  | poke address bytes text => rw [applyTo_poke]; rfl
  | _ => rfl

/-- Where an event goes. -/
structure Routed (event : Event) : Prop where
  /-- The machine takes the staging events. -/
  applied_iff : ∀ m, (event.applyTo m).isSome = true ↔ event.isStaging = true
  /-- The session declines the same events. -/
  declined_iff : ∀ (s : Session) clock host,
    s.dispatch clock host event = none ↔ event.isStaging = true
  /-- An event for the machine leaves the session alone, and nothing is written. -/
  declined : event.isStaging = true → ∀ (s : Session) world clock host,
    s.step world clock (.event host event) = (s, world, [])
  /-- Any other event leaves the machine alone. -/
  kept : event.isStaging = false → ∀ m : FlatMachine, m.apply (.event event) = m
  /-- To dispatch an event is to call its entry point. -/
  dispatched_iff : ∀ (s : Session) clock host result,
    s.dispatch clock host event = some result ↔ s.Enters clock host event result
  /-- There is an entry point for every event that is not for the machine, and what it makes of the
  session and the trace is what comes of the event. -/
  entered : event.isStaging = false → ∀ (s : Session) clock host, ∃ t records,
    s.Enters clock host event (t, records) ∧ ∀ world, s.step world clock (.event host event) =
      ((t.emit world records).1, (t.emit world records).2, records)

theorem routed (event : Event) : event.Routed where
  applied_iff m := by rw [isSome_applyTo]
  declined_iff s clock host := by rw [← Option.isNone_iff_eq_none, s.isNone_dispatch]
  declined hstaging s world clock host := by
    have hnone : s.dispatch clock host event = none :=
      Option.isNone_iff_eq_none.1 ((s.isNone_dispatch clock host event).trans hstaging)
    simp only [Session.step, hnone]
  kept hstaging m := by
    have hnone : event.applyTo m = none :=
      Option.isNone_iff_eq_none.1 (by rw [← Option.not_isSome, isSome_applyTo, hstaging]; rfl)
    rw [FlatMachine.apply, hnone, Option.getD_none]
  dispatched_iff _ _ _ _ := Session.dispatch_eq_some_iff
  entered hstaging s clock host := by
    obtain ⟨⟨t, records⟩, hsome⟩ : ∃ result, s.dispatch clock host event = some result :=
      Option.isSome_iff_exists.1
        (by rw [← Option.not_isNone, s.isNone_dispatch, hstaging]; rfl)
    refine ⟨t, records, Session.dispatch_eq_some_iff.1 hsome, fun world => ?_⟩
    simp only [Session.step, hsome]

end Event

/-! ### Direct calls -/

namespace Session

/-- The call is one of an entry point of the tracer. -/
def Call.hasEntry : Call → Bool
  | .event _ e => !e.isStaging
  | _ => false

/-- The entry points of events are called one after another, each at its readings and with its own
host, and the records of each are written before the next is called: the session and the world
after that, and all records. -/
inductive Calls : Session → World → History → Session → World → List Record → Prop
  | nil (s : Session) (world : World) : Calls s world [] s world []
  | cons {s t last : Session} {world lastWorld : World} {clock : Readings} {host : Host}
      {event : Event} {records more : List Record} {rest : History}
      (enters : s.Enters clock host event (t, records))
      (calls : Calls (t.emit world records).1 (t.emit world records).2 rest last lastWorld more) :
      Calls s world ((clock, .event host event) :: rest) last lastWorld (records ++ more)

theorem Calls.run_eq {s last : Session} {world lastWorld : World} {h : History}
    {records : List Record} (hcalls : s.Calls world h last lastWorld records) :
    s.run world h = (last, lastWorld, records) := by
  induction hcalls with
  | nil s world => rfl
  | cons enters calls ih => simp only [run, step, dispatch_eq_some_iff.2 enters, ih]

theorem exists_calls (s : Session) (world : World) {h : History}
    (hentry : ∀ entry ∈ h, entry.2.hasEntry = true) :
    ∃ last lastWorld records, s.Calls world h last lastWorld records := by
  induction h generalizing s world with
  | nil => exact ⟨s, world, [], .nil s world⟩
  | cons entry h ih =>
    obtain ⟨hhead, htail⟩ := List.forall_mem_cons.1 hentry
    obtain ⟨clock, call⟩ := entry
    cases call with
    | event host event =>
      obtain ⟨t, records, henters, -⟩ :=
        event.routed.entered ((Bool.not_eq_true' _).mp hhead) s clock host
      obtain ⟨last, lastWorld, more, hrest⟩ := ih (t.emit world records).1 _ htail
      exact ⟨last, lastWorld, records ++ more, .cons henters hrest⟩
    | _ => exact Bool.noConfusion hhead

/-- Calls of entry points can be made in one way only, and leave what the run of the session
leaves. -/
theorem calls_iff {s last : Session} {world lastWorld : World} {h : History}
    {records : List Record} (hentry : ∀ entry ∈ h, entry.2.hasEntry = true) :
    s.Calls world h last lastWorld records ↔ s.run world h = (last, lastWorld, records) := by
  refine ⟨Calls.run_eq, fun hrun => ?_⟩
  obtain ⟨last', lastWorld', records', hcalls⟩ := s.exists_calls world hentry
  obtain ⟨rfl, hworld⟩ := Prod.mk.inj (hcalls.run_eq.symm.trans hrun)
  obtain ⟨rfl, rfl⟩ := Prod.mk.inj hworld
  exact hcalls

end Session

/-! ### Scripts -/

namespace Script

/-- A new machine after the events of a script, of which those count that are for the machine. -/
def machineAfter (events : List Event) : FlatMachine :=
  .after (events.map .event)

/-- The calls of the tracer that a script comes to: one for each event that is not for the machine,
at the readings for that event, and with the machine as it is after the events before it. -/
def tracerCalls (clock : Nat → Readings) (events : List Event) : History :=
  (events.zipIdx.filter fun numbered => !numbered.1.isStaging).map fun numbered =>
    (clock (numbered.2 + 1), .event (machineAfter (events.take numbered.2)).host numbered.1)

theorem machineAfter_concat (events : List Event) (event : Event) :
    machineAfter (events ++ [event]) = (machineAfter events).apply (.event event) := by
  unfold machineAfter FlatMachine.after
  rw [List.map_append, List.foldl_append]
  rfl

/-- The calls of a script that goes on by one event. -/
theorem tracerCalls_concat (clock : Nat → Readings) (events : List Event) (event : Event) :
    tracerCalls clock (events ++ [event]) = tracerCalls clock events ++
      if event.isStaging then []
      else [(clock (events.length + 1), .event (machineAfter events).host event)] := by
  unfold tracerCalls
  rw [List.zipIdx_append, List.filter_append, List.map_append]
  congr 1
  · refine List.map_congr_left fun numbered hmem => ?_
    obtain ⟨-, hlt, -⟩ := List.mem_zipIdx (List.mem_filter.1 hmem).1
    rw [List.take_append_of_le_length (by omega)]
  · rw [List.zipIdx_singleton, Nat.zero_add]
    cases h : event.isStaging <;> simp [h]

theorem hasEntry_of_mem_tracerCalls {clock : Nat → Readings} {events : List Event}
    {entry : Readings × Session.Call} (h : entry ∈ tracerCalls clock events) :
    entry.2.hasEntry = true := by
  obtain ⟨numbered, hmem, rfl⟩ := List.mem_map.1 h
  exact (List.mem_filter.1 hmem).2

end Script

/-! ### Replays -/

namespace Cli.Replay

variable (config : Config) (world : World) (clock : Nat → Readings)

theorem feedAll_concat (r : Replay) (events : List Event) (event : Event) :
    r.feedAll clock (events ++ [event]) =
      (r.feedAll clock events).feed (clock (events.length + 1)) event := by
  unfold feedAll
  rw [List.zipIdx_append, List.foldl_append, List.zipIdx_singleton, Nat.zero_add]
  rfl

/-- What one event does to a replay. -/
theorem feed_eq (r : Replay) (clock : Readings) (event : Event) : r.feed clock event =
    if event.isStaging then
      { r with machine := r.machine.apply (.event event), staged := r.staged + 1 }
    else
      { r with
        session := (r.session.step r.world clock (.event r.machine.host event)).1
        world := (r.session.step r.world clock (.event r.machine.host event)).2.1 } := by
  unfold feed
  rcases happly : event.applyTo r.machine with _ | m
  · have hstaging : event.isStaging = false := by
      rw [← event.isSome_applyTo r.machine, happly]
      rfl
    rw [hstaging]
    rfl
  · have hstaging : event.isStaging = true := by
      rw [← event.isSome_applyTo r.machine, happly]
      rfl
    rw [hstaging, FlatMachine.apply, happly]
    rfl

/-- A replay has come as far as some events of a script: its machine is that of the script, its
session and its world are as after the calls of the script, and the events for the machine were
counted. -/
structure Follows (r : Replay) (events : List Event) : Prop where
  machine_eq : r.machine = Script.machineAfter events
  session_eq : r.session =
    Setup.after { config } ((clock 0).nth 0) world (Script.tracerCalls clock events)
  world_eq : r.world =
    Setup.worldAfter { config } ((clock 0).nth 0) world (Script.tracerCalls clock events)
  staged_eq : r.staged = events.countP Event.isStaging

theorem follows_start : Follows config world clock (start config world ((clock 0).nth 0)) [] where
  machine_eq := rfl
  session_eq := rfl
  world_eq := rfl
  staged_eq := rfl

variable {config world clock}

theorem Follows.feed {r : Replay} {events : List Event}
    (h : Follows config world clock r events) (event : Event) :
    Follows config world clock (r.feed (clock (events.length + 1)) event) (events ++ [event]) := by
  obtain ⟨hmachine, hsession, hworld, hstaged⟩ := h
  rw [feed_eq]
  rcases hstaging : event.isStaging with _ | _
  · have hcalls := Script.tracerCalls_concat clock events event
    rw [hstaging, if_neg Bool.false_ne_true] at hcalls
    rw [if_neg Bool.false_ne_true]
    constructor
    · rw [Script.machineAfter_concat, event.routed.kept hstaging]
      exact hmachine
    · rw [hcalls, Setup.after_concat, ← hsession, ← hworld, ← hmachine]
    · rw [hcalls, Setup.worldAfter_concat, ← hsession, ← hworld, ← hmachine]
    · rw [List.countP_append, List.countP_singleton, hstaging]
      exact hstaged
  · have hcalls := Script.tracerCalls_concat clock events event
    rw [hstaging, if_pos rfl, List.append_nil] at hcalls
    rw [if_pos rfl]
    constructor
    · rw [Script.machineAfter_concat, ← hmachine]
    · rw [hcalls]
      exact hsession
    · rw [hcalls]
      exact hworld
    · rw [List.countP_append, List.countP_singleton, hstaging, ← hstaged]
      rfl

variable (config world clock)

/-- Every replay has come as far as it was fed. -/
theorem follows (events : List Event) : Follows config world clock
    ((start config world ((clock 0).nth 0)).feedAll clock events) events := by
  induction events using List.reverseRecOn with
  | nil => exact follows_start config world clock
  | append_singleton events event ih =>
    rw [feedAll_concat]
    exact ih.feed event

/-- Every event is staged or dispatched. -/
theorem length_eq_add (events : List Event) : events.length =
    events.countP Event.isStaging + (Script.tracerCalls clock events).length := by
  induction events using List.reverseRecOn with
  | nil => rfl
  | append_singleton events event ih =>
    rw [Script.tracerCalls_concat, List.length_append, List.length_append, List.countP_append,
      List.countP_singleton, ih, List.length_singleton]
    cases event.isStaging
    · exact Nat.add_assoc _ _ 1
    · exact Nat.add_right_comm _ _ 1

end Cli.Replay

end RealModeTrace
