import RealModeTrace.Proofs.Clock
import RealModeTrace.Proofs.Session.Soundness

/-!
# Loads and exits

What a sound session does when a program is loaded or exits, and that nothing else is written about
either.

* `Session.Sound.step_isActive`, `Session.Sound.step_epoch`: whether tracing is on after a call, and
  since when time is counted;
* `Session.Sound.answer_load`, `Session.Sound.answer_exit`: the records of a load and of an exit;
* `Session.Sound.answer_eq_nil_of_inactive`: while tracing is off, only a load can write anything;
* `Session.isNotice_eq_false_of_mem_answer`, `Session.Sound.isNotice_of_mem_answer`: loads and exits
  make notices, and nothing else does.
-/

namespace RealModeTrace

/-- What is observed when a program is loaded. The segment of its prefix is in SS. -/
def Payload.ofLoad (host : Host) (filename : String) (cmdline : Option String) : Payload :=
  .exec filename (cmdline.getD "") host.registers.ss

/-- The record is of a load or of an exit, or tells that tracing was switched on or off. -/
def Record.isNotice : Record → Bool
  | .timed _ (.exec _ _ _) => true
  | .timed _ .activated => true
  | .timed _ (.terminated _ _) => true
  | .banner .deactivated => true
  | _ => false

/-- A load that starts tracing under these options. -/
def Session.Call.activates (c : Config) : Call → Bool
  | .event host (.programExec _ _) => loadActivates c host
  | _ => false

theorem Session.Call.exists_of_activates {c : Config} {call : Call} (h : call.activates c = true) :
    ∃ host filename cmdline, call = .event host (.programExec filename cmdline) ∧
      loadActivates c host = true := by
  cases call with
  | event host event =>
    cases event with
    | programExec filename cmdline => exact ⟨host, filename, cmdline, rfl, h⟩
    | _ => exact Bool.noConfusion h
  | _ => exact Bool.noConfusion h

theorem Session.Call.isLoad_of_activates {c : Config} {call : Call} (h : call.activates c = true) :
    call.isLoad = true := by
  obtain ⟨host, filename, cmdline, rfl, -⟩ := exists_of_activates h
  rfl

/-- An exit ends tracing unless the depth stays positive. -/
theorem Activation.terminate_active (a : Activation) :
    a.terminate.1.active = (a.active && decide (1 < a.depth)) := by
  rcases ha : a.active with _ | _
  · rw [terminate_of_inactive ha, ha]
    rfl
  · rw [terminate_of_active ha, Bool.true_and]
    by_cases hd : a.depth ≤ 1
    · rw [if_pos hd]
      exact (decide_eq_false (by omega)).symm
    · rw [if_neg hd]
      exact (decide_eq_true (by omega)).symm

namespace Session

variable {s : Session}

/-! ### Whether tracing is on -/

/-- Whether tracing is on after a call: a load may switch it on, an exit may switch it off, new
options and the end decide for themselves. -/
theorem Sound.step_isActive (hs : s.Sound) (world : World) (clock : Readings) (call : Call) :
    (s.step world clock call).1.isActive =
      match call with
      | .event host (.programExec _ _) => s.isActive || (s.ready && loadActivates s.config host)
      | .event _ (.programTerminated _) => s.isActive && decide (1 < s.activation.depth)
      | .event _ _ => s.isActive
      | .update c => s.ready && c.eager
      | .shutdown => false := by
  rw [isActive, hs.step_activation]
  cases call with
  | event host event =>
    cases event with
    | programExec filename cmdline =>
      dsimp only
      split_ifs with h
      · exact h.symm
      · rw [Bool.not_eq_true, Bool.or_eq_false_iff] at h
        rw [h.2, Bool.or_false]
        rfl
    | programTerminated exitCode => exact s.activation.terminate_active
    | _ => rfl
  | update c =>
    dsimp only
    rcases hr : s.ready with _ | _
    · exact hs.isActive_eq_false hr
    · rcases c.eager with _ | _ <;> rfl
  | shutdown => rfl

/-- The epoch after a call: one that switches tracing on sets it, but new options only if there is
none, and the end of the session forgets it. -/
theorem Sound.step_epoch (hs : s.Sound) (world : World) (clock : Readings) (call : Call) :
    (s.step world clock call).1.epoch =
      if call.isShutdown then .unset
      else if !s.isActive && (s.step world clock call).1.isActive &&
          (call.isLoad || !s.epoch.isSet) then .startingAt (clock.nth 0)
      else s.epoch := by
  have hactive := hs.step_isActive world clock call
  cases call with
  | event host event =>
    rw [hactive, step_event_fst, emit_epoch, observe_epoch]
    cases event with
    | programExec filename cmdline =>
      simp only [Call.isShutdown, Call.isLoad, ← hs.ready_eq]
      cases s.ready <;> cases s.isActive <;> simp
    | _ =>
      simp only [Call.isShutdown, Call.isLoad]
      cases s.isActive <;> simp
  | update c =>
    rw [hactive, step_update_fst, update_epoch, ← hs.ready_eq]
    simp only [Call.isShutdown, Call.isLoad, Epoch.ensure]
    cases s.ready <;> cases s.isActive <;> cases s.epoch.isSet <;> simp
  | shutdown =>
    rw [step_shutdown_fst]
    rfl

/-! ### Records -/

/-- The records of a load: one, and another that tracing was switched on if that was so. Their times
then count from the first reading of the load. -/
theorem Sound.answer_load (hs : s.Sound) (clock : Readings) (host : Host) (filename : String)
    (cmdline : Option String) :
    s.answer (clock, .event host (.programExec filename cmdline)) =
      if s.isActive then [s.stamp (clock.nth 0) (.ofLoad host filename cmdline)]
      else if s.ready && loadActivates s.config host then
        [.timed (clock.sinceFirst 1) (.ofLoad host filename cmdline),
          .timed (clock.sinceFirst 2) .activated]
      else [] := by
  show (s.programExec clock host filename cmdline).2 = _
  unfold programExec
  rcases hr : s.ready with _ | _
  · rw [hs.isActive_eq_false hr]
    rfl
  have hw : s.writer.isSome = true := by rw [← hs.ready_eq, hr]
  rw [Option.isNone_eq_false_iff.2 hw]
  rcases ha : s.isActive with _ | _
  · rcases loadActivates s.config host with _ | _
    · rfl
    · -- the epoch of the trace is the first reading
      have he (n : Nat) : (s.activateAt (clock.nth 0)).elapsed (clock.nth n) =
          clock.sinceFirst n := by
        rw [elapsed_eq, activateAt_epoch s (clock.nth 0) hw, Readings.sinceFirst]
      show [Record.timed ((s.activateAt (clock.nth 0)).elapsed (clock.nth 1)) _,
        Record.timed ((s.activateAt (clock.nth 0)).elapsed (clock.nth 2)) _] = _
      rw [he, he]
      rfl
  · rfl

/-- The records of an exit: one with the depth that is left, and the closing banner if none is. -/
theorem Sound.answer_exit (hs : s.Sound) (clock : Readings) (host : Host) (exitCode : UInt8) :
    s.answer (clock, .event host (.programTerminated exitCode)) =
      if s.isActive then
        s.stamp (clock.nth 0) (.terminated exitCode (s.activation.depth - 1)) ::
          if s.activation.depth ≤ 1 then [.banner .deactivated] else []
      else [] := by
  show (s.programTerminated (clock.nth 0) exitCode).2 = _
  unfold programTerminated
  rcases ha : s.isActive with _ | _
  · rw [Activation.terminate_of_inactive ha, ite_self]
    rfl
  · rw [← hs.ready_eq, hs.ready_of_active ha, Activation.terminate_of_active ha]
    simp only [if_true, decide_eq_true_eq]

theorem traces_eq_false (ha : s.isActive = false) (category : Bool) :
    s.traces category = false := by
  rw [traces, ha]
  rfl

/-- While tracing is off, only a load can write anything. -/
theorem Sound.answer_eq_nil_of_inactive (hs : s.Sound) (ha : s.isActive = false)
    {entry : Readings × Call} (he : entry.2.isEvent = true) (hl : entry.2.isLoad = false) :
    s.answer entry = [] := by
  obtain ⟨clock, call⟩ := entry
  obtain ⟨host, event, rfl⟩ : ∃ host event, call = .event host event := Call.exists_of_isEvent he
  cases event with
  | programExec filename cmdline => exact Bool.noConfusion hl
  | programTerminated exitCode => rw [hs.answer_exit, ha]; rfl
  | handleOpened _ _ | setRegisters _ | poke _ _ _ | setBatch _ => rfl
  | _ =>
    show (s.observe clock host _).2 = []
    rw [observe_snd]
    simp only [traces_eq_false ha, Bool.false_and, Bool.false_eq_true, if_false]

/-- Only loads and exits make notices. -/
theorem isNotice_eq_false_of_mem_answer {entry : Readings × Call} (hl : entry.2.isLoad = false)
    (hx : entry.2.isExit = false) {r : Record} (hr : r ∈ s.answer entry) : r.isNotice = false := by
  obtain ⟨clock, call⟩ := entry
  cases call with
  | event host event =>
    replace hr : r ∈ (s.observe clock host event).2 := hr
    rw [observe_snd] at hr
    cases event with
    | programExec filename cmdline => exact Bool.noConfusion hl
    | programTerminated exitCode => exact Bool.noConfusion hx
    | handleOpened _ _ | setRegisters _ | poke _ _ _ | setBatch _ =>
      exact absurd hr List.not_mem_nil
    | readCompleted handle actual buffer =>
      obtain ⟨-, hr⟩ := List.mem_ite_nil_right.1 hr
      obtain ⟨n, payload, hp, rfl⟩ := mem_stampAll hr
      rcases FileLog.eq_of_mem_completeRead hp with rfl | ⟨bytes, rfl⟩ <;> rfl
    | _ =>
      obtain ⟨-, hr⟩ := List.mem_ite_nil_right.1 hr
      rw [List.mem_singleton.1 hr]
      rfl
  | update c => exact absurd hr List.not_mem_nil
  | shutdown =>
    rw [eq_of_mem_closingRecords hr]
    rfl

/-- Loads and exits make notices alone. -/
theorem Sound.isNotice_of_mem_answer (hs : s.Sound) {entry : Readings × Call}
    (hp : entry.2.isLoad = true ∨ entry.2.isExit = true) {r : Record} (hr : r ∈ s.answer entry) :
    r.isNotice = true := by
  obtain ⟨clock, call⟩ := entry
  rcases hp with hl | hx
  · obtain ⟨host, filename, cmdline, rfl⟩ := Call.exists_of_isLoad hl
    rw [hs.answer_load] at hr
    split_ifs at hr
    · rw [List.mem_singleton.1 hr]
      rfl
    · rcases List.mem_pair.1 hr with rfl | rfl <;> rfl
    · exact absurd hr List.not_mem_nil
  · obtain ⟨host, exitCode, rfl⟩ := Call.exists_of_isExit hx
    rw [hs.answer_exit] at hr
    split_ifs at hr
    · rcases List.mem_pair.1 hr with rfl | rfl <;> rfl
    · rw [List.mem_singleton.1 hr]
      rfl
    · exact absurd hr List.not_mem_nil

end Session

end RealModeTrace
