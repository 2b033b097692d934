import RealModeTrace.Proofs.Session.Programs

/-!
# The two halves of a read

A read is delivered in two halves, its issue and its completion. A half that comes while file events
are traced moves the slot of the read that waits; any other half leaves the slot alone.

* `ReadHalf`, `readHalves`: the halves that a history delivers;
* `Setup.tracedHalves`, `Setup.tracedSince`: those among them that come while file events are
  traced, in a history and in what comes after it;
* `Session.step_slot`: the slot after a call; `Setup.slot_after`: after a history it holds the
  request of the last traced half, as long as the session accepts events;
* `Session.answer_readCompleted`: the records of a completion;
* `Session.Sound.isReadRecord_eq_false`: nothing but a half of a read makes records of reads.
-/

namespace RealModeTrace

/-! ### Halves -/

/-- One half of a read. -/
inductive ReadHalf
  | issued (request : ReadRequest)
  | completed (handle : UInt16)
  deriving DecidableEq, Repr

namespace ReadHalf

/-- The request that waits after the half. -/
def request? : ReadHalf → Option ReadRequest
  | .issued request => some request
  | .completed _ => none

/-- The half issues a read from this handle. -/
def issues (handle : UInt16) (half : ReadHalf) : Bool :=
  half.request?.any (·.handle == handle)

theorem issues_iff {handle : UInt16} {half : ReadHalf} :
    half.issues handle = true ↔ ∃ request, half = .issued request ∧ request.handle = handle := by
  cases half with
  | issued request =>
    constructor
    · intro h
      exact ⟨request, rfl, beq_iff_eq.1 h⟩
    · rintro ⟨_, heq, hh⟩
      cases heq
      exact beq_iff_eq.2 hh
  | completed other =>
    constructor
    · intro h
      exact Bool.noConfusion h
    · rintro ⟨_, heq, -⟩
      cases heq

end ReadHalf

namespace Session.Call

/-- The half of a read that the call delivers. -/
def half? : Call → Option ReadHalf
  | .event _ (.readIssued handle requested segment offset) =>
    some (.issued ⟨handle, requested, segment, offset⟩)
  | .event _ (.readCompleted handle _ _) => some (.completed handle)
  | _ => none

theorem exists_of_issued {call : Call} {request : ReadRequest}
    (h : call.half? = some (.issued request)) :
    ∃ host, call = .event host (.readIssued request.handle request.requested request.segment
      request.offset) := by
  cases call with
  | event host event =>
    cases event with
    | readIssued handle requested segment offset =>
      cases h
      exact ⟨host, rfl⟩
    | _ => cases h
  | _ => cases h

theorem exists_of_completed {call : Call} {handle : UInt16}
    (h : call.half? = some (.completed handle)) :
    ∃ host actual buffer, call = .event host (.readCompleted handle actual buffer) := by
  cases call with
  | event host event =>
    cases event with
    | readCompleted other actual buffer =>
      cases h
      exact ⟨host, actual, buffer, rfl⟩
    | _ => cases h
  | _ => cases h

end Session.Call

/-- The halves of reads that a history delivers, oldest first. -/
def readHalves (h : History) : List ReadHalf :=
  h.filterMap (·.2.half?)

/-! ### Records of reads -/

/-- The record is the line of a request, of a result or of file data. -/
def Record.isReadRecord : Record → Bool
  | .timed _ (.fileRead _ _) => true
  | .timed _ (.fileReadResult _ _ _) => true
  | .timed _ (.fileData _) => true
  | _ => false

/-- The handle of the read whose result the record is. -/
def Record.resultHandle? : Record → Option UInt16
  | .timed _ (.fileReadResult _ handle _) => some handle
  | _ => none

theorem Record.isReadRecord_eq_false {r : Record} (h : r.isNotice = true) :
    r.isReadRecord = false := by
  cases r with
  | timed elapsed payload =>
    cases payload with
    | exec _ _ _ | activated | terminated _ _ => rfl
    | _ => cases h
  | banner banner => rfl

theorem Record.resultHandle?_eq_none {r : Record} (h : r.isReadRecord = false) :
    r.resultHandle? = none := by
  cases r with
  | timed elapsed payload =>
    cases payload with
    | fileReadResult _ _ _ => cases h
    | _ => rfl
  | banner banner => rfl

namespace Session

variable {s : Session}

/-! ### One call -/

/-- File events are traced. -/
def tracesFiles (s : Session) : Bool :=
  s.traces s.config.fileIo

/-- A read from this handle waits for its completion. -/
def awaits (s : Session) (handle : UInt16) : Bool :=
  s.files.pending.slot.any (·.handle == handle)

/-- The half of a read that the call delivers, if file events are traced. -/
def tracedHalf? (s : Session) (call : Call) : Option ReadHalf :=
  if s.tracesFiles then call.half? else none

theorem tracedHalf?_eq_some {call : Call} {half : ReadHalf} :
    s.tracedHalf? call = some half ↔ s.tracesFiles = true ∧ call.half? = some half := by
  unfold tracedHalf?
  exact Option.ite_none_right_eq_some

theorem Sound.ready_of_tracesFiles (hs : s.Sound) (h : s.tracesFiles = true) : s.ready = true := by
  rw [tracesFiles, traces, Bool.and_eq_true, Bool.and_eq_true] at h
  exact hs.ready_of_active h.1.1

/-- The slot after a call: a half of a read decides if it is traced, and the end empties it. -/
theorem step_slot (s : Session) (world : World) (clock : Readings) (call : Call) :
    (s.step world clock call).1.files.pending.slot =
      if call.isShutdown then none
      else match s.tracedHalf? call with
        | some half => half.request?
        | none => s.files.pending.slot := by
  cases call with
  | event host event =>
    rw [step_event_fst, emit_files, observe_files]
    cases event with
    | readIssued handle requested segment offset =>
      show (if s.tracesFiles then _ else _ : FileLog).pending.slot = _
      unfold tracedHalf?
      cases s.tracesFiles <;> rfl
    | readCompleted handle actual buffer =>
      show (if s.tracesFiles then _ else _ : FileLog).pending.slot = _
      unfold tracedHalf?
      cases s.tracesFiles <;> rfl
    | _ =>
      unfold tracedHalf?
      rw [show Call.half? _ = none from rfl, ite_self]
      rfl
  | update c =>
    rw [step_update_fst, update_files]
    unfold tracedHalf?
    rw [show Call.half? _ = none from rfl, ite_self]
    rfl
  | shutdown => rw [step_shutdown_fst]; rfl

/-- The record of an issue, under the name of the handle. -/
theorem answer_readIssued (s : Session) (clock : Readings) (host : Host)
    (handle requested segment offset : UInt16) :
    s.answer (clock, .event host (.readIssued handle requested segment offset)) =
      if s.tracesFiles then
        [s.stamp (clock.nth 0) (.fileRead (s.files.handles.lookup handle)
          ⟨handle, requested, segment, offset⟩)]
      else [] :=
  s.observe_snd clock host (.readIssued handle requested segment offset)

/-- The data of a read make one record at most, which takes the second reading. -/
theorem stampAll_cons_dataPayload (s : Session) (clock : Readings) (payload : Payload) (host : Host)
    (buffer : UInt32) (actual : UInt16) (limit : Nat) :
    s.stampAll clock (payload :: FileLog.dataPayload host buffer actual limit) =
      s.stamp (clock.nth 0) payload ::
        (FileLog.dataPayload host buffer actual limit).map (s.stamp (clock.nth 1)) := by
  simp only [FileLog.dataPayload]
  split_ifs <;> rfl

/-- The records of a completion: the result and the data, if a read from the handle waits. -/
theorem answer_readCompleted (s : Session) (clock : Readings) (host : Host) (handle actual : UInt16)
    (buffer : UInt32) :
    s.answer (clock, .event host (.readCompleted handle actual buffer)) =
      if s.tracesFiles && s.awaits handle then
        s.stamp (clock.nth 0) (.fileReadResult (s.files.handles.lookup handle) handle actual) ::
          (FileLog.dataPayload host buffer actual s.config.dumpLimit).map (s.stamp (clock.nth 1))
      else [] := by
  refine (s.observe_snd clock host (.readCompleted handle actual buffer)).trans ?_
  show (if s.tracesFiles then _ else _) = _
  rcases s.tracesFiles with _ | _
  · rfl
  show s.stampAll clock (s.files.completeRead host handle actual buffer s.config.dumpLimit).2 = _
  unfold FileLog.completeRead PendingRead.complete awaits
  rcases s.files.pending.slot with _ | request
  · rfl
  · -- the request is kept exactly if it is for this handle
    rw [Option.any_some, Bool.true_and, Option.filter_some]
    rcases request.handle == handle with _ | _
    · rfl
    · exact s.stampAll_cons_dataPayload clock _ host buffer actual _

/-- A completion is answered with nothing, or with the result of a read that waits, and perhaps the
data. -/
theorem answer_completed_cases (s : Session) {entry : Readings × Call} {handle : UInt16}
    (hc : entry.2.half? = some (.completed handle)) :
    s.answer entry = [] ∨ s.awaits handle = true ∧ ∃ name actual,
      s.answer entry = [s.stamp (entry.1.nth 0) (.fileReadResult name handle actual)] ∨
      ∃ bytes, s.answer entry = [s.stamp (entry.1.nth 0) (.fileReadResult name handle actual),
        s.stamp (entry.1.nth 1) (.fileData bytes)] := by
  obtain ⟨clock, call⟩ := entry
  obtain ⟨host, actual, buffer, rfl⟩ : ∃ host actual buffer,
    call = .event host (.readCompleted handle actual buffer) := Call.exists_of_completed hc
  rw [answer_readCompleted]
  by_cases h : (s.tracesFiles && s.awaits handle) = true
  · rw [if_pos h]
    refine Or.inr ⟨(Bool.and_eq_true_iff.1 h).2, s.files.handles.lookup handle, actual, ?_⟩
    simp only [FileLog.dataPayload]
    split_ifs
    · exact Or.inl rfl
    · exact Or.inr ⟨_, rfl⟩
  · exact Or.inl (if_neg h)

/-- Nothing but a half of a read makes records of reads. -/
theorem Sound.isReadRecord_of_half?_eq_none (hs : s.Sound) {entry : Readings × Call}
    (hh : entry.2.half? = none) {r : Record} (hr : r ∈ s.answer entry) :
    r.isReadRecord = false := by
  by_cases hp : entry.2.isLoad = true ∨ entry.2.isExit = true
  · exact Record.isReadRecord_eq_false (hs.isNotice_of_mem_answer hp hr)
  obtain ⟨clock, call⟩ := entry
  cases call with
  | event host event =>
    replace hr : r ∈ (s.observe clock host event).2 := hr
    rw [observe_snd] at hr
    cases event with
    | handleOpened _ _ | setRegisters _ | poke _ _ _ | setBatch _ =>
      exact absurd hr List.not_mem_nil
    | programExec filename cmdline => exact absurd (Or.inl rfl) hp
    | programTerminated exitCode => exact absurd (Or.inr rfl) hp
    | readIssued _ _ _ _ | readCompleted _ _ _ => cases hh
    | _ =>
      obtain ⟨-, hr⟩ := List.mem_ite_nil_right.1 hr
      rw [List.mem_singleton.1 hr]
      rfl
  | update c => exact absurd hr List.not_mem_nil
  | shutdown =>
    rw [eq_of_mem_closingRecords hr]
    rfl

/-- Nothing but a half of a read makes records of reads, and only while file events are traced. -/
theorem Sound.isReadRecord_eq_false (hs : s.Sound) {entry : Readings × Call}
    (hh : s.tracedHalf? entry.2 = none) {r : Record} (hr : r ∈ s.answer entry) :
    r.isReadRecord = false := by
  rcases ht : s.tracesFiles with _ | _
  · obtain ⟨clock, call⟩ := entry
    rcases hc : call.half? with _ | ⟨request⟩ | ⟨handle⟩
    · exact hs.isReadRecord_of_half?_eq_none hc hr
    · obtain ⟨host, rfl⟩ := Call.exists_of_issued hc
      rw [answer_readIssued, ht] at hr
      exact absurd hr List.not_mem_nil
    · obtain ⟨host, actual, buffer, rfl⟩ := Call.exists_of_completed hc
      rw [answer_readCompleted, ht] at hr
      exact absurd hr List.not_mem_nil
  · rw [tracedHalf?, if_pos ht] at hh
    exact hs.isReadRecord_of_half?_eq_none hh hr

/-- A record of reads other than a request is in the answer to a completion. -/
theorem Sound.exists_completed (hs : s.Sound) {entry : Readings × Call} {r : Record}
    (hr : r ∈ s.answer entry) (hread : r.isReadRecord = true)
    (hrequest : ∀ t name request, r ≠ .timed t (.fileRead name request)) :
    ∃ handle, entry.2.half? = some (.completed handle) := by
  rcases hc : entry.2.half? with _ | ⟨request⟩ | ⟨handle⟩
  · rw [hs.isReadRecord_of_half?_eq_none hc hr] at hread
    exact Bool.noConfusion hread
  · -- an issue is answered with its request alone
    obtain ⟨clock, call⟩ := entry
    obtain ⟨host, rfl⟩ := Call.exists_of_issued hc
    rw [answer_readIssued] at hr
    obtain ⟨-, hr⟩ := List.mem_ite_nil_right.1 hr
    exact absurd (List.mem_singleton.1 hr) (hrequest _ _ _)
  · exact ⟨handle, rfl⟩

/-- The result of a read is a record of its traced completion alone, if the read waits. -/
theorem Sound.reports_iff (hs : s.Sound) {entry : Readings × Call} {handle : UInt16} :
    (∃ r ∈ s.answer entry, r.resultHandle? = some handle) ↔
      s.tracedHalf? entry.2 = some (.completed handle) ∧ s.awaits handle = true := by
  rw [tracedHalf?_eq_some]
  constructor
  · rintro ⟨r, hr, hh⟩
    obtain ⟨other, hc⟩ : ∃ other, entry.2.half? = some (.completed other) := by
      refine hs.exists_completed hr (Bool.of_not_eq_false fun hf => ?_) ?_
      · rw [Record.resultHandle?_eq_none hf] at hh
        cases hh
      · rintro t name request rfl
        cases hh
    obtain ⟨clock, call⟩ := entry
    obtain ⟨host, actual, buffer, rfl⟩ := Call.exists_of_completed hc
    rw [answer_readCompleted] at hr
    obtain ⟨hta, hr⟩ := List.mem_ite_nil_right.1 hr
    obtain ⟨ht, ha⟩ := Bool.and_eq_true_iff.1 hta
    rcases List.mem_cons.1 hr with rfl | hr
    · cases hh
      exact ⟨⟨ht, rfl⟩, ha⟩
    · -- the data of a read is not its result
      obtain ⟨payload, hp, rfl⟩ := List.mem_map.1 hr
      obtain ⟨-, hp⟩ := List.mem_ite_nil_left.1 hp
      rw [List.mem_singleton.1 hp] at hh
      cases hh
  · rintro ⟨⟨ht, hc⟩, ha⟩
    obtain ⟨clock, call⟩ := entry
    obtain ⟨host, actual, buffer, rfl⟩ := Call.exists_of_completed hc
    rw [answer_readCompleted, ht, ha]
    exact ⟨_, List.mem_cons_self, rfl⟩

/-! ### Histories -/

/-- The halves of reads that a history delivers while file events are traced, oldest first. -/
def tracedHalves (s : Session) (world : World) : History → List ReadHalf
  | [] => []
  | entry :: h =>
    (s.tracedHalf? entry.2).toList ++
      (s.step world entry.1 entry.2).1.tracedHalves (s.step world entry.1 entry.2).2.1 h

theorem tracedHalves_append (s : Session) (world : World) (h k : History) :
    s.tracedHalves world (h ++ k) =
      s.tracedHalves world h ++ (s.after world h).tracedHalves (s.worldAfter world h) k := by
  induction h generalizing s world with
  | nil => rfl
  | cons entry h ih =>
    rw [List.cons_append, tracedHalves, ih, tracedHalves, after_cons, worldAfter_cons,
      List.append_assoc]

end Session

namespace Setup

variable (setup : Setup) (now : Duration) (world : World)

/-- The halves of reads that come while file events are traced, oldest first. -/
def tracedHalves (h : History) : List ReadHalf :=
  (setup.start now world).1.tracedHalves (setup.start now world).2.1 h

/-- Those that come in a further history. -/
def tracedSince (before h : History) : List ReadHalf :=
  (setup.after now world before).tracedHalves (setup.worldAfter now world before) h

theorem tracedHalves_append (before h : History) :
    setup.tracedHalves now world (before ++ h) =
      setup.tracedHalves now world before ++ setup.tracedSince now world before h :=
  Session.tracedHalves_append ..

theorem tracedSince_append (before h k : History) :
    setup.tracedSince now world before (h ++ k) =
      setup.tracedSince now world before h ++ setup.tracedSince now world (before ++ h) k := by
  unfold tracedSince after worldAfter
  rw [Session.tracedHalves_append, Session.after_append, Session.worldAfter_append]

theorem tracedSince_singleton (before : History) (entry : Readings × Session.Call) :
    setup.tracedSince now world before [entry] =
      ((setup.after now world before).tracedHalf? entry.2).toList :=
  List.append_nil _

theorem tracedHalves_concat (h : History) (entry : Readings × Session.Call) :
    setup.tracedHalves now world (h ++ [entry]) = setup.tracedHalves now world h ++
      ((setup.after now world h).tracedHalf? entry.2).toList := by
  rw [tracedHalves_append, tracedSince_singleton]

/-- **The read that waits** after a history is that of the last traced half, as long as events are
accepted; after the end of the session none waits. -/
theorem slot_after (h : History) : (setup.after now world h).files.pending.slot =
    if (setup.after now world h).ready then
      (setup.tracedHalves now world h).getLast?.bind ReadHalf.request?
    else none := by
  induction h using List.reverseRecOn with
  | nil =>
    rw [after_nil, start_files]
    exact (ite_self _).symm
  | append_singleton h entry ih =>
    have hs := setup.sound_after now world h
    rw [after_concat, Session.step_slot, Session.step_ready, tracedHalves_concat]
    rcases hd : entry.2.isShutdown with _ | _
    · rcases ht : (setup.after now world h).tracedHalf? entry.2 with _ | half
      · rw [Option.toList_none, List.append_nil, Bool.not_false, Bool.and_true]
        exact ih
      · -- a traced half comes only to a session that accepts events
        rw [hs.ready_of_tracesFiles (Session.tracedHalf?_eq_some.1 ht).1, Option.toList_some,
          List.getLast?_concat]
        rfl
    · rw [Bool.not_true, Bool.and_false]
      rfl

/-- A traced completion is reported exactly if the last traced half before it issued a read from its
handle. -/
theorem awaits_eq (h : History) (handle : UInt16)
    (ht : (setup.after now world h).tracesFiles = true) :
    (setup.after now world h).awaits handle =
      (setup.tracedHalves now world h).getLast?.any (·.issues handle) := by
  have hs := setup.sound_after now world h
  rw [Session.awaits, slot_after, if_pos (hs.ready_of_tracesFiles ht)]
  rcases (setup.tracedHalves now world h).getLast? with _ | half <;> rfl

end Setup

end RealModeTrace
