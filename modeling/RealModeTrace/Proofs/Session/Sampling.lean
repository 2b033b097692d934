import RealModeTrace.Proofs.Session.Categories
import RealModeTrace.Proofs.Session.MasterSwitch
import RealModeTrace.Proofs.Session.Output

/-!
# Sampling

While a session is active and instructions are traced, every so many-th instruction is logged. The
count begins at the start, and again whenever new options change the stride; whatever else happens,
the phase stays. What carries this is a balance: each sampled instruction counts one up, and each
logged one pays a whole stride back.

* `Sampler.InStride.tick_balance`: the balance of one instruction;
* `Session.samples`, `Setup.sampledSince`: an instruction that is counted, and their number in a
  further history;
* `Setup.KeepsStride`, `Setup.Restarts`: the stride stays through a further history, and the count
  begins after a history;
* `Session.Sound.step_balance`, `Setup.KeepsStride.balance`: the balance of a call, and of a further
  history;
* `Setup.SamplesEvenly`: what is logged; `Setup.sampled_evenly`: it is so after every history.
-/

namespace RealModeTrace

/-! ### The sampler -/

namespace Sampler

variable {s : Sampler}

/-- One more instruction: the counter goes up by one, or it is back at its beginning and a stride is
paid. -/
theorem InStride.tick_balance (h : s.InStride) :
    s.tick.1.counter.toNat + (if s.tick.2 then s.stride.toNat else 0) = s.counter.toNat + 1 := by
  have hlt : s.counter.toNat < s.stride.toNat := UInt32.lt_iff_toNat_lt.1 h
  have hsucc : (s.counter + 1).toNat = s.counter.toNat + 1 := by
    rw [UInt32.toNat_add]
    exact Nat.mod_eq_of_lt h.counter_succ_lt
  rw [Sampler.tick]
  by_cases hone : s.stride ≤ 1
  · -- with a stride of one the counter never leaves zero
    have hle : s.stride.toNat ≤ 1 := UInt32.le_iff_toNat_le.1 hone
    rw [if_pos hone]
    show s.counter.toNat + s.stride.toNat = s.counter.toNat + 1
    omega
  · rw [if_neg hone]
    by_cases hshort : s.counter + 1 < s.stride
    · rw [if_pos hshort]
      exact hsucc
    · rw [if_neg hshort]
      rw [UInt32.lt_iff_toNat_lt, hsucc] at hshort
      show 0 + s.stride.toNat = s.counter.toNat + 1
      omega

/-- An instruction is logged exactly if it completes a stride. -/
theorem InStride.logs_iff (h : s.InStride) {n : Nat}
    (hcounter : s.counter.toNat = n % s.stride.toNat) :
    s.tick.2 = true ↔ s.stride.toNat ∣ n + 1 := by
  have hbalance := h.tick_balance
  have hlt : s.counter.toNat < s.stride.toNat := UInt32.lt_iff_toNat_lt.1 h
  have hafter : s.tick.1.counter.toNat < s.stride.toNat := by
    rw [← s.tick_stride]
    exact UInt32.lt_iff_toNat_lt.1 h.tick
  have hdvd : s.stride.toNat ∣ n + 1 ↔ s.stride.toNat ∣ s.counter.toNat + 1 := by
    rw [Nat.dvd_iff_mod_eq_zero, Nat.dvd_iff_mod_eq_zero, hcounter, Nat.mod_add_mod]
  rw [hdvd]
  rcases hlogged : s.tick.2 with _ | _
  · rw [hlogged, if_neg Bool.false_ne_true, Nat.add_zero] at hbalance
    refine iff_of_false Bool.false_ne_true fun hd => ?_
    exact absurd (Nat.le_of_dvd (Nat.succ_pos _) hd) (by omega)
  · rw [hlogged, if_pos rfl] at hbalance
    exact iff_of_true rfl ⟨1, by omega⟩

theorem ensureStride_of_eq {stride : UInt32} (h : max stride 1 = s.stride) :
    s.ensureStride stride = s :=
  if_pos h

theorem ensureStride_of_ne {stride : UInt32} (h : max stride 1 ≠ s.stride) :
    s.ensureStride stride = ofStride stride :=
  if_neg h

end Sampler

/-! ### One call -/

namespace Session

/-- An instruction comes while the session is active and instructions are traced. -/
def samples (s : Session) : Call → Bool
  | .event _ (.instructionFetched _ _) => s.isActive && s.config.instructions
  | _ => false

/-- The records of instructions among some records. -/
def instructionCount (records : List Record) : Nat :=
  records.countP (·.category? = some .instructions)

variable {s : Session}

theorem exists_of_samples {call : Call} (h : s.samples call = true) :
    ∃ host cs ip, call = .event host (.instructionFetched cs ip) := by
  cases call with
  | event host event =>
    cases event with
    | instructionFetched cs ip => exact ⟨host, cs, ip, rfl⟩
    | _ => exact Bool.noConfusion h
  | _ => exact Bool.noConfusion h

/-- An instruction is sampled exactly if lines for instructions can be written. -/
theorem Sound.traces_instructions (hs : s.Sound) (host : Host) (cs ip : UInt16) :
    s.traces s.config.instructions = s.samples (.event host (.instructionFetched cs ip)) := by
  show (s.isActive && s.config.instructions && s.writer.isSome) =
    (s.isActive && s.config.instructions)
  rcases ha : s.isActive with _ | _
  · rfl
  · rw [← hs.ready_eq, hs.ready_of_active ha, Bool.and_true]

/-- The record of a sampled instruction that completes a stride. -/
theorem Sound.answer_sampled (hs : s.Sound) {clock : Readings} {host : Host} {cs ip : UInt16}
    (h : s.samples (.event host (.instructionFetched cs ip)) = true) :
    s.answer (clock, .event host (.instructionFetched cs ip)) =
      if s.sampler.tick.2 then
        [s.stamp (clock.nth 0) (.instruction cs ip (host.opcode cs ip) host.registers)]
      else [] := by
  show (s.observe clock host (.instructionFetched cs ip)).2 = _
  rw [observe_snd]
  dsimp only
  rw [hs.traces_instructions host cs ip, h, Bool.true_and]

/-- Nothing else makes records of instructions. -/
theorem Sound.instructionCount_of_unsampled (hs : s.Sound) {entry : Readings × Call}
    (h : s.samples entry.2 = false) : instructionCount (s.answer entry) = 0 := by
  obtain ⟨clock, call⟩ := entry
  rw [instructionCount, List.countP_eq_zero]
  intro r hr
  rw [hs.category?_of_mem_answer hr, decide_eq_true_eq]
  intro hcategory
  cases call with
  | event host event =>
    cases event with
    | instructionFetched cs ip =>
      -- an instruction that is not sampled writes nothing
      replace hr : r ∈ (s.observe clock host (.instructionFetched cs ip)).2 := hr
      rw [observe_snd] at hr
      dsimp only at hr
      rw [hs.traces_instructions host cs ip, h] at hr
      exact absurd hr List.not_mem_nil
    | _ => cases hcategory
  | _ => cases hcategory

/-- The sampler after a call: sampled instructions count, and new options may change the stride. -/
theorem Sound.step_sampler (hs : s.Sound) (world : World) (clock : Readings) (call : Call) :
    (s.step world clock call).1.sampler =
      match call.newConfig? with
      | some c => s.sampler.ensureStride c.sanitized.stride
      | none => if s.samples call then s.sampler.tick.1 else s.sampler := by
  cases call with
  | event host event =>
    rw [step_event_fst, emit_sampler, Session.observe_sampler]
    cases event with
    | instructionFetched cs ip =>
      dsimp only
      rw [hs.traces_instructions host cs ip]
      rfl
    | _ => rfl
  | update c => rw [step_update_fst, update_sampler]; rfl
  | shutdown => rw [step_shutdown_fst]; rfl

/-- A call that is not sampled and leaves the stride alone leaves the sampler alone. -/
theorem Sound.step_sampler_of_unsampled (hs : s.Sound) (world : World) {entry : Readings × Call}
    (h : s.samples entry.2 = false)
    (hstride : (s.step world entry.1 entry.2).1.config.stride = s.config.stride) :
    (s.step world entry.1 entry.2).1.sampler = s.sampler := by
  rw [step_config] at hstride
  rw [hs.step_sampler]
  rcases hc : entry.2.newConfig? with _ | c
  · dsimp only
    rw [h, if_neg Bool.false_ne_true]
  · rw [hc] at hstride
    exact Sampler.ensureStride_of_eq
      ((Config.max_stride _).trans (hstride.trans hs.stride_eq.symm))

/-- A call that changes the stride begins a new count. -/
theorem Sound.step_sampler_of_ne (hs : s.Sound) (world : World) (entry : Readings × Call)
    (hstride : (s.step world entry.1 entry.2).1.config.stride ≠ s.config.stride) :
    (s.step world entry.1 entry.2).1.sampler =
      ⟨(s.step world entry.1 entry.2).1.config.stride, 0⟩ := by
  rw [step_config] at hstride ⊢
  rw [hs.step_sampler]
  rcases hc : entry.2.newConfig? with _ | c
  · rw [hc] at hstride
    exact absurd rfl hstride
  · rw [hc] at hstride
    have hne : max c.sanitized.stride 1 ≠ s.sampler.stride := by
      rw [Config.max_stride, hs.stride_eq]
      exact hstride
    refine (Sampler.ensureStride_of_ne hne).trans ?_
    rw [Sampler.ofStride, Config.max_stride]
    rfl

/-- **The balance of a call** that leaves the stride alone. -/
theorem Sound.step_balance (hs : s.Sound) (world : World) (entry : Readings × Call)
    (hstride : (s.step world entry.1 entry.2).1.config.stride = s.config.stride) :
    (s.step world entry.1 entry.2).1.sampler.counter.toNat +
        s.config.stride.toNat * instructionCount (s.answer entry) =
      s.sampler.counter.toNat + if s.samples entry.2 then 1 else 0 := by
  rcases h : s.samples entry.2 with _ | _
  · rw [hs.step_sampler_of_unsampled world h hstride, hs.instructionCount_of_unsampled h]
    rfl
  · obtain ⟨clock, call⟩ := entry
    obtain ⟨host, cs, ip, rfl⟩ := exists_of_samples h
    have hbalance := hs.inStride.tick_balance
    rw [hs.step_sampler, hs.answer_sampled h, ← hs.stride_eq]
    dsimp only [Call.newConfig?] at h ⊢
    rw [h, if_pos rfl, if_pos rfl, ← hbalance]
    rcases s.sampler.tick.2 with _ | _
    · rfl
    · exact congrArg (s.sampler.tick.1.counter.toNat + ·) (Nat.mul_one _)

/-! ### Histories -/

/-- The number of instructions in a history that are sampled. -/
def sampled (s : Session) (world : World) : History → Nat
  | [] => 0
  | entry :: h =>
    (if s.samples entry.2 then 1 else 0) +
      (s.step world entry.1 entry.2).1.sampled (s.step world entry.1 entry.2).2.1 h

theorem sampled_concat (s : Session) (world : World) (h : History) (entry : Readings × Call) :
    s.sampled world (h ++ [entry]) =
      s.sampled world h + if (s.after world h).samples entry.2 then 1 else 0 := by
  induction h generalizing s world with
  | nil => exact Nat.add_comm _ _
  | cons first h ih =>
    rw [List.cons_append, sampled, ih, sampled, after_cons]
    exact (Nat.add_assoc _ _ _).symm

end Session

namespace Setup

variable (setup : Setup) (now : Duration) (world : World)

/-- The number of instructions of a further history that are sampled. -/
def sampledSince (before h : History) : Nat :=
  (setup.after now world before).sampled (setup.worldAfter now world before) h

/-- The number of instructions of a further history that are logged. -/
def loggedSince (before h : History) : Nat :=
  Session.instructionCount (setup.traceSince now world before h)

/-- The stride after a history, which the latest options decide. -/
def strideAfter (h : History) : UInt32 :=
  (setup.optionsAfter h).stride

/-- The stride is the same all through a further history. -/
def KeepsStride (before h : History) : Prop :=
  ∀ p, p <+: h → setup.strideAfter (before ++ p) = setup.strideAfter before

/-- The count of instructions begins after this history: it is the start, or its last call changed
the stride. -/
def Restarts (before : History) : Prop :=
  before = [] ∨ ∃ earlier entry, before = earlier ++ [entry] ∧
    setup.strideAfter before ≠ setup.strideAfter earlier

theorem sampledSince_concat (before h : History) (entry : Readings × Session.Call) :
    setup.sampledSince now world before (h ++ [entry]) =
      setup.sampledSince now world before h +
        if (setup.after now world (before ++ h)).samples entry.2 then 1 else 0 := by
  rw [after_append]
  exact Session.sampled_concat ..

theorem loggedSince_concat (before h : History) (entry : Readings × Session.Call) :
    setup.loggedSince now world before (h ++ [entry]) =
      setup.loggedSince now world before h +
        Session.instructionCount ((setup.after now world (before ++ h)).answer entry) := by
  rw [loggedSince, traceSince_concat, Session.instructionCount, List.countP_append]
  rfl

theorem after_stride (h : History) :
    (setup.after now world h).config.stride = setup.strideAfter h := by
  rw [after_config]
  rfl

variable {setup}

theorem keepsStride_nil (before : History) : setup.KeepsStride before [] := fun p hp => by
  rw [List.prefix_nil.1 hp, List.append_nil]

theorem KeepsStride.concat {before h : History} {entry : Readings × Session.Call}
    (hk : setup.KeepsStride before (h ++ [entry])) : setup.KeepsStride before h ∧
      setup.strideAfter (before ++ h ++ [entry]) = setup.strideAfter (before ++ h) := by
  refine ⟨fun p hp => hk p (hp.trans (List.prefix_append ..)), ?_⟩
  rw [List.append_assoc, hk _ (List.prefix_refl _), hk h (List.prefix_append ..)]

theorem KeepsStride.stride_eq {before h : History} (hk : setup.KeepsStride before h) :
    setup.strideAfter (before ++ h) = setup.strideAfter before :=
  hk h (List.prefix_refl _)

/-- Every history goes on, with the same stride, from where the count began. -/
theorem exists_restarts (h : History) :
    ∃ before k, h = before ++ k ∧ setup.Restarts before ∧ setup.KeepsStride before k := by
  induction h using List.reverseRecOn with
  | nil => exact ⟨[], [], rfl, Or.inl rfl, keepsStride_nil []⟩
  | append_singleton h entry ih =>
    by_cases hstride : setup.strideAfter (h ++ [entry]) = setup.strideAfter h
    · obtain ⟨before, k, rfl, hr, hk⟩ := ih
      refine ⟨before, k ++ [entry], List.append_assoc .., hr, fun p hp => ?_⟩
      rcases List.prefix_concat_iff.1 hp with rfl | hp
      · rw [← List.append_assoc, hstride, hk.stride_eq]
      · exact hk p hp
    · exact ⟨h ++ [entry], [], (List.append_nil _).symm, Or.inr ⟨h, entry, rfl, hstride⟩,
        keepsStride_nil _⟩

/-- The counter is zero where the count begins. -/
theorem Restarts.counter_eq {before : History} (hr : setup.Restarts before) :
    (setup.after now world before).sampler.counter = 0 := by
  rcases hr with rfl | ⟨earlier, entry, rfl, hne⟩
  · rw [after_nil, start_sampler]
    rfl
  · have hs := setup.sound_after now world earlier
    have hstep := hs.step_sampler_of_ne (setup.worldAfter now world earlier) entry
    rw [← after_concat, after_stride, after_stride] at hstep
    rw [hstep hne]

/-- **The balance of a further history** through which the stride stays. -/
theorem KeepsStride.balance {before k : History} (hk : setup.KeepsStride before k) :
    (setup.after now world (before ++ k)).sampler.counter.toNat +
        (setup.strideAfter before).toNat * setup.loggedSince now world before k =
      (setup.after now world before).sampler.counter.toNat +
        setup.sampledSince now world before k := by
  induction k using List.reverseRecOn with
  | nil => rw [List.append_nil]; rfl
  | append_singleton k entry ih =>
    obtain ⟨hk, hstride⟩ := hk.concat
    have hs := setup.sound_after now world (before ++ k)
    have hstep := hs.step_balance (setup.worldAfter now world (before ++ k)) entry
    rw [← after_concat, after_stride, after_stride] at hstep
    replace hstep := hstep hstride
    rw [hk.stride_eq] at hstep
    rw [← List.append_assoc, loggedSince_concat, sampledSince_concat, Nat.mul_add]
    have := ih hk
    omega

/-- The counter is the number of sampled instructions since the count began, but for whole
strides. -/
theorem KeepsStride.counter_eq {before k : History} (hk : setup.KeepsStride before k)
    (hr : setup.Restarts before) :
    (setup.after now world (before ++ k)).sampler.counter.toNat =
      setup.sampledSince now world before k % (setup.strideAfter before).toNat := by
  have hbalance := hk.balance now world
  have hs := setup.sound_after now world (before ++ k)
  have hlt := UInt32.lt_iff_toNat_lt.1 hs.inStride
  rw [hs.stride_eq, after_stride, hk.stride_eq] at hlt
  rw [hr.counter_eq now world, UInt32.toNat_zero, Nat.zero_add] at hbalance
  rw [← hbalance, Nat.add_mul_mod_self_left, Nat.mod_eq_of_lt hlt]

variable (setup)

/-- How a session samples instructions, after a history. -/
structure SamplesEvenly (h : History) : Prop where
  /-- The stride is the rate that the latest options ask for, and at least one. -/
  stride_eq : (setup.after now world h).sampler.stride = setup.strideAfter h
  stride_pos : 1 ≤ (setup.strideAfter h).toNat
  /-- The counter can be counted up without running over. -/
  room : (setup.after now world h).sampler.counter.toNat + 1 < UInt32.size
  /-- Counting began at the start, or when the stride was changed the last time. -/
  began : ∃ before k, h = before ++ k ∧ setup.Restarts before ∧ setup.KeepsStride before k
  /-- The phase is the number of instructions sampled since then, but for whole strides. -/
  phase : ∀ before k, h = before ++ k → setup.Restarts before → setup.KeepsStride before k →
    (setup.after now world h).sampler.counter.toNat =
      setup.sampledSince now world before k % (setup.strideAfter h).toNat
  /-- A sampled instruction is logged exactly if its number since then is a multiple of the
  stride. -/
  logged : ∀ before k, h = before ++ k → setup.Restarts before → setup.KeepsStride before k →
    ∀ clock host cs ip,
    (setup.after now world h).samples (.event host (.instructionFetched cs ip)) = true →
    (setup.after now world h).answer (clock, .event host (.instructionFetched cs ip)) =
      if (setup.strideAfter h).toNat ∣ setup.sampledSince now world before k + 1 then
        [(setup.after now world h).stamp (clock.nth 0)
          (.instruction cs ip (host.opcode cs ip) host.registers)]
      else []
  /-- No other call logs an instruction, and none moves the phase unless it changes the stride. -/
  unsampled : ∀ entry, (setup.after now world h).samples entry.2 = false →
    (∀ r ∈ (setup.after now world h).answer entry, r.category? ≠ some .instructions) ∧
      (setup.strideAfter (h ++ [entry]) = setup.strideAfter h →
        (setup.after now world (h ++ [entry])).sampler = (setup.after now world h).sampler)
  /-- A call that changes the stride begins the count anew. -/
  restarted : ∀ entry, setup.strideAfter (h ++ [entry]) ≠ setup.strideAfter h →
    setup.Restarts (h ++ [entry]) ∧
      (setup.after now world (h ++ [entry])).sampler = ⟨setup.strideAfter (h ++ [entry]), 0⟩
  /-- Through any stretch of the history in which the stride stays, of the sampled instructions one
  in a stride is logged, rounded down or up. -/
  evenly : ∀ before k, h = before ++ k → setup.KeepsStride before k →
    setup.sampledSince now world before k / (setup.strideAfter h).toNat ≤
        setup.loggedSince now world before k ∧
      setup.loggedSince now world before k ≤
        (setup.sampledSince now world before k + (setup.strideAfter h).toNat - 1) /
          (setup.strideAfter h).toNat
  /-- The lines of the records are what goes to the sink. -/
  delivered : setup.worldAfter now world h =
    ((setup.outlet world).pushAll (setup.lines now world h)).world

/-- **Every so many-th instruction is logged.** After every history of every session: an instruction
that comes while the session is active and instructions are traced is logged exactly if its number
among such instructions, counted since the start or the last change of the stride, is a multiple of
the stride. No other call moves the phase, however tracing goes off and on, but one that changes the
stride begins the count anew. So of the instructions sampled in any stretch of a history in which
the stride stays, one in a stride is logged, rounded down or up; and the counter never runs over. -/
theorem sampled_evenly (h : History) : setup.SamplesEvenly now world h := by
  have hs := setup.sound_after now world h
  have hstride : (setup.after now world h).sampler.stride = setup.strideAfter h := by
    rw [hs.stride_eq, after_stride]
  have hpos : 1 ≤ (setup.strideAfter h).toNat := by
    rw [← hstride]
    exact Nat.lt_of_le_of_lt (Nat.zero_le _) (UInt32.lt_iff_toNat_lt.1 hs.inStride)
  constructor
  case stride_eq => exact hstride
  case stride_pos => exact hpos
  case room => exact hs.inStride.counter_succ_lt
  case began => exact exists_restarts h
  case delivered => exact (setup.delivered_after now world h).world_eq
  case phase =>
    rintro before k rfl hr hk
    rw [hk.stride_eq]
    exact hk.counter_eq now world hr
  case logged =>
    rintro before k rfl hr hk clock host cs ip hsampled
    have hcounter := hk.counter_eq now world hr
    rw [← hk.stride_eq, ← hstride] at hcounter
    rw [hs.answer_sampled hsampled, ← hstride]
    exact if_congr (hs.inStride.logs_iff hcounter) rfl rfl
  case unsampled =>
    intro entry hunsampled
    constructor
    · intro r hr hcategory
      have hcount := hs.instructionCount_of_unsampled hunsampled
      rw [Session.instructionCount, List.countP_eq_zero] at hcount
      exact hcount r hr (decide_eq_true hcategory)
    · intro hsame
      rw [← setup.after_stride now world, ← setup.after_stride now world, after_concat] at hsame
      rw [after_concat]
      exact hs.step_sampler_of_unsampled _ hunsampled hsame
  case restarted =>
    intro entry hne
    refine ⟨Or.inr ⟨h, entry, rfl, hne⟩, ?_⟩
    rw [← setup.after_stride now world, ← setup.after_stride now world, after_concat] at hne
    rw [← setup.after_stride now world, after_concat]
    exact hs.step_sampler_of_ne _ entry hne
  case evenly =>
    rintro before k rfl hk
    have hbalance := hk.balance now world
    have hbefore := setup.sound_after now world before
    have hlow := UInt32.lt_iff_toNat_lt.1 hs.inStride
    have hhigh := UInt32.lt_iff_toNat_lt.1 hbefore.inStride
    rw [hstride] at hlow
    rw [hbefore.stride_eq, after_stride] at hhigh
    rw [hk.stride_eq] at hlow hpos ⊢
    -- both counters are short of the stride, so the logged ones are a stride each, give or take one
    constructor
    · rw [Nat.div_le_iff_le_mul_add_pred hpos]
      omega
    · rw [Nat.le_div_iff_mul_le hpos, Nat.mul_comm]
      omega

/-- Of seven instructions every third is logged, though tracing goes off and on among them. -/
example :
    let eager : Config := { enabled := true, waitForLoad := false, sampleRate := 3 }
    let fetch : Readings × Session.Call := (0, .event Host.blank (.instructionFetched 0 0))
    ({ config := eager } : Setup).loggedSince 0 {} []
      (List.replicate 4 fetch ++ [(0, .update { eager with enabled := false }), fetch,
        (0, .update eager)] ++ List.replicate 3 fetch) = 2 := by
  decide +kernel

end Setup

end RealModeTrace
