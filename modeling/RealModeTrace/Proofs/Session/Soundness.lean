import RealModeTrace.Proofs.Session.Effects
import Mathlib.Data.List.Nodup
import Mathlib.Data.List.Perm.Subperm

/-!
# The session invariant

What holds of a session between any two calls. Each part of a session has a condition of its own,
kept by the operations of that part; `Session.Sound` joins them with what ties the parts together.

* `Config.InRange`, `Sampler.InStride`, `HandleTable.Tracked`, `Activation.Grounded`: the parts;
* `Session.Sound`: the invariant; `Setup.sound_start` and `Session.Sound.step`: the start has it and
  every call keeps it;
* `Session.Sound.step_activation`: the activation after a call of a sound session;
* `Setup.sound_after`, `Setup.session_invariant`: every reachable session is sound, tracks at most
  255 handles, and has no greater depth than loads it was told of.
-/

namespace RealModeTrace

/-! ### Options -/

/-- The numbers are within their bounds. -/
def Config.InRange (c : Config) : Prop :=
  c.dumpBytes ≤ dumpCeiling ∧ 1 ≤ c.sampleRate

theorem Config.inRange_sanitized (c : Config) : c.sanitized.InRange := by
  constructor
  · show min c.dumpBytes dumpCeiling ≤ dumpCeiling
    rw [UInt32.le_iff_toNat_le, UInt32.toNat_min]
    exact Nat.min_le_right _ _
  · show 1 ≤ max c.sampleRate 1
    rw [UInt32.le_iff_toNat_le, UInt32.toNat_max]
    exact Nat.le_max_right _ _

theorem Config.max_stride (c : Config) : max c.stride 1 = c.stride := by
  rw [← UInt32.toNat_inj, Config.stride, UInt32.toNat_max, UInt32.toNat_max]
  exact Nat.max_eq_left (Nat.le_max_right _ _)

/-! ### The sampler -/

namespace Sampler

/-- The counter is short of the stride. -/
def InStride (s : Sampler) : Prop :=
  s.counter < s.stride

theorem inStride_ofStride (stride : UInt32) : (ofStride stride).InStride := by
  show 0 < max stride 1
  rw [UInt32.lt_iff_toNat_lt, UInt32.toNat_max]
  exact Nat.lt_of_lt_of_le Nat.one_pos (Nat.le_max_right _ _)

theorem ensureStride_stride (s : Sampler) (stride : UInt32) :
    (s.ensureStride stride).stride = max stride 1 := by
  unfold ensureStride
  split_ifs with h
  · exact h.symm
  · rfl

theorem InStride.ensureStride {s : Sampler} (h : s.InStride) (stride : UInt32) :
    (s.ensureStride stride).InStride := by
  unfold Sampler.ensureStride
  split_ifs
  · exact h
  · exact inStride_ofStride stride

theorem tick_stride (s : Sampler) : s.tick.1.stride = s.stride := by
  unfold tick
  split_ifs <;> rfl

theorem InStride.tick {s : Sampler} (h : s.InStride) : s.tick.1.InStride := by
  unfold Sampler.tick
  split_ifs with h1 h2
  · exact h
  · exact h2
  · show 0 < s.stride
    exact UInt32.lt_of_le_of_lt UInt32.zero_le h

/-- A counter short of its stride can be counted up without running over. -/
theorem InStride.counter_succ_lt {s : Sampler} (h : s.InStride) :
    s.counter.toNat + 1 < UInt32.size := by
  have hlt : s.counter.toNat < s.stride.toNat := UInt32.lt_iff_toNat_lt.1 h
  have hsize := s.stride.toNat_lt_size
  omega

end Sampler

/-! ### Handles -/

namespace HandleTable

/-- Every tracked handle is small and has a name, and is tracked once. -/
structure Tracked (t : HandleTable) : Prop where
  handle_lt : ∀ entry ∈ t.entries, entry.1 < handleLimit
  name_ne : ∀ entry ∈ t.entries, entry.2 ≠ ""
  nodup : (t.entries.map Prod.fst).Nodup

theorem tracked_empty : empty.Tracked where
  handle_lt := fun _ h => absurd h List.not_mem_nil
  name_ne := fun _ h => absurd h List.not_mem_nil
  nodup := List.nodup_nil

theorem Tracked.forget {t : HandleTable} (h : t.Tracked) (handle : UInt16) :
    (t.forget handle).Tracked where
  handle_lt := fun entry he => h.handle_lt entry (List.mem_of_mem_filter he)
  name_ne := fun entry he => h.name_ne entry (List.mem_of_mem_filter he)
  nodup := h.nodup.sublist (List.filter_sublist.map Prod.fst)

theorem fst_ne_of_mem_forget {t : HandleTable} {handle : UInt16} {entry : UInt16 × String}
    (h : entry ∈ (t.forget handle).entries) : entry.1 ≠ handle :=
  bne_iff_ne.1 (List.mem_filter.1 h).2

theorem Tracked.record {t : HandleTable} (h : t.Tracked) (handle : UInt16) (name : String) :
    (t.record handle name).Tracked := by
  unfold HandleTable.record
  split_ifs with ht
  · rw [trackable, Bool.and_eq_true, decide_eq_true_eq, bne_iff_ne] at ht
    have hf := h.forget handle
    refine ⟨?_, ?_, ?_⟩
    · intro entry he
      rcases List.mem_cons.1 he with rfl | he
      · exact ht.1
      · exact hf.handle_lt entry he
    · intro entry he
      rcases List.mem_cons.1 he with rfl | he
      · exact ht.2
      · exact hf.name_ne entry he
    · -- the old entry of the handle is gone, so its new one is the only one
      refine List.nodup_cons.2 ⟨fun hm => ?_, hf.nodup⟩
      obtain ⟨entry, he, heq⟩ := List.mem_map.1 hm
      exact fst_ne_of_mem_forget he heq
  · exact h

/-- No more handles are tracked than there are numbers below the bound. -/
theorem Tracked.size_le {t : HandleTable} (h : t.Tracked) : t.size ≤ 255 := by
  have hsub : (t.entries.map fun entry => entry.1.toNat) ⊆ List.range 255 := by
    intro n hn
    obtain ⟨entry, he, rfl⟩ := List.mem_map.1 hn
    exact List.mem_range.2 (UInt16.lt_iff_toNat_lt.1 (h.handle_lt entry he))
  have hnodup : (t.entries.map fun entry => entry.1.toNat).Nodup := by
    have := List.Nodup.map (fun _ _ hab => UInt16.toNat_inj.1 hab) h.nodup
    rwa [List.map_map] at this
  have := (List.subperm_of_subset hnodup hsub).length_le
  rwa [List.length_map, List.length_range] at this

end HandleTable

/-! ### The activation -/

namespace Activation

/-- The depth is not negative, and zero while tracing is off. -/
structure Grounded (a : Activation) : Prop where
  nonneg : 0 ≤ a.depth
  of_inactive : a.active = false → a.depth = 0

theorem grounded_off : off.Grounded := ⟨Int.le_refl 0, fun _ => rfl⟩

theorem Grounded.eq_off {a : Activation} (h : a.Grounded) (ha : a.active = false) : a = off := by
  obtain ⟨active, depth⟩ := a
  obtain rfl : active = false := ha
  exact congrArg (Activation.mk false) (h.of_inactive rfl)

theorem Grounded.activate {a : Activation} (h : a.Grounded) : a.activate.Grounded := by
  unfold Activation.activate
  split_ifs
  · exact h
  · exact ⟨Int.le_refl 0, fun _ => rfl⟩

/-- Switching on leaves the depth alone, since that is zero before. -/
theorem Grounded.activate_eq {a : Activation} (h : a.Grounded) : a.activate = ⟨true, a.depth⟩ := by
  rcases ha : a.active with _ | _
  · rw [activate_of_inactive ha, h.of_inactive ha]
  · rw [activate_of_active ha, ← ha]

theorem Grounded.pushExec {a : Activation} (h : a.Grounded) : a.pushExec.Grounded := by
  unfold Activation.pushExec
  split_ifs with ha
  · refine ⟨?_, fun hf => Bool.noConfusion (ha.symm.trans hf)⟩
    show 0 ≤ a.depth + 1
    have := h.nonneg
    omega
  · exact h

theorem Grounded.terminate {a : Activation} (h : a.Grounded) : a.terminate.1.Grounded := by
  rcases ha : a.active with _ | _
  · rw [terminate_of_inactive ha]
    exact h
  · rw [terminate_of_active ha]
    show Grounded (if a.depth ≤ 1 then off else ⟨true, a.depth - 1⟩)
    split_ifs with hd
    · exact grounded_off
    · refine ⟨?_, fun hf => Bool.noConfusion hf⟩
      show 0 ≤ a.depth - 1
      omega

end Activation

theorem Epoch.isSet_ensure (e : Epoch) (now : Duration) : (e.ensure now).isSet = true := by
  unfold ensure
  split_ifs with h
  · exact h
  · rfl

namespace Session

/-- What holds of a session between two calls. -/
structure Sound (s : Session) : Prop where
  /-- Events are accepted exactly while there is a sink. -/
  ready_eq : s.ready = s.writer.isSome
  ready_of_active : s.isActive = true → s.ready = true
  epoch_of_active : s.isActive = true → s.epoch.isSet = true
  grounded : s.activation.Grounded
  /-- A trace at depth zero was begun by its options and not by a load. -/
  eager_of_depth : s.isActive = true → s.activation.depth = 0 → s.config.eager = true
  ready_of_pending : s.files.pending.isPending = true → s.ready = true
  stride_eq : s.sampler.stride = s.config.stride
  inStride : s.sampler.InStride
  inRange : s.config.InRange
  tracked : s.files.handles.Tracked

variable {s : Session}

/-! ### Events -/

/-- What an event does to the activation and the epoch of a sound session: nothing, a load within a
trace, a load that begins one, or an exit. -/
theorem Sound.observe_cases (hs : s.Sound) (clock : Readings) (host : Host) (event : Event) :
    ((s.observe clock host event).1.activation = s.activation ∧
      (s.observe clock host event).1.epoch = s.epoch) ∨
    (s.isActive = true ∧
      (s.observe clock host event).1.activation = ⟨true, s.activation.depth + 1⟩ ∧
      (s.observe clock host event).1.epoch = s.epoch) ∨
    (s.isActive = false ∧ s.ready = true ∧
      (s.observe clock host event).1.activation = ⟨true, s.activation.depth + 1⟩ ∧
      (s.observe clock host event).1.epoch = .startingAt (clock.nth 0)) ∨
    (s.isActive = true ∧
      (s.observe clock host event).1.activation = s.activation.terminate.1 ∧
      (s.observe clock host event).1.epoch = s.epoch) := by
  rw [observe_activation, observe_epoch]
  cases event with
  | programExec filename cmdline =>
    dsimp only
    rw [← hs.ready_eq, Bool.and_self]
    rcases hr : s.ready with _ | _
    · exact Or.inl ⟨rfl, rfl⟩
    rcases ha : s.isActive with _ | _
    · rcases loadActivates s.config host with _ | _
      · exact Or.inl ⟨rfl, rfl⟩
      · refine Or.inr (Or.inr (Or.inl ⟨rfl, rfl, ?_, rfl⟩))
        show s.activation.activate.pushExec = _
        rw [hs.grounded.activate_eq]
        rfl
    · refine Or.inr (Or.inl ⟨rfl, ?_, rfl⟩)
      show s.activation.activate.pushExec = _
      rw [hs.grounded.activate_eq]
      rfl
  | programTerminated exitCode =>
    dsimp only
    rw [← hs.ready_eq]
    rcases ha : s.isActive with _ | _
    · refine Or.inl ⟨?_, rfl⟩
      rw [Activation.terminate_of_inactive ha, ite_self]
    · rw [if_pos (hs.ready_of_active ha)]
      exact Or.inr (Or.inr (Or.inr ⟨rfl, rfl, rfl⟩))
  | _ => exact Or.inl ⟨rfl, rfl⟩

theorem Sound.emit (hs : s.Sound) (world : World) (records : List Record) :
    (s.emit world records).1.Sound where
  ready_eq := by rw [emit_ready, emit_isSome]; exact hs.ready_eq
  ready_of_active := by rw [isActive, emit_activation, emit_ready]; exact hs.ready_of_active
  epoch_of_active := by rw [isActive, emit_activation, emit_epoch]; exact hs.epoch_of_active
  grounded := by rw [emit_activation]; exact hs.grounded
  eager_of_depth := by
    rw [isActive, emit_activation, emit_config]
    exact hs.eager_of_depth
  ready_of_pending := by rw [emit_files, emit_ready]; exact hs.ready_of_pending
  stride_eq := by rw [emit_sampler, emit_config]; exact hs.stride_eq
  inStride := by rw [emit_sampler]; exact hs.inStride
  inRange := by rw [emit_config]; exact hs.inRange
  tracked := by rw [emit_files]; exact hs.tracked

theorem Sound.observe_tracked (hs : s.Sound) (clock : Readings) (host : Host) (event : Event) :
    (s.observe clock host event).1.files.handles.Tracked := by
  rw [observe_files]
  cases event with
  | handleOpened handle filename => exact hs.tracked.record handle filename
  | fileClosed handle => exact hs.tracked.forget handle
  | readIssued handle requested segment offset =>
    dsimp only
    split_ifs <;> exact hs.tracked
  | readCompleted handle actual buffer =>
    dsimp only
    split_ifs <;> exact hs.tracked
  | _ => exact hs.tracked

theorem Sound.observe_pending (hs : s.Sound) (clock : Readings) (host : Host) (event : Event)
    (h : (s.observe clock host event).1.files.pending.isPending = true) : s.ready = true := by
  rw [observe_files] at h
  cases event with
  | readIssued handle requested segment offset =>
    dsimp only at h
    split_ifs at h with ht
    · -- a read is kept only while tracing
      rw [traces, Bool.and_eq_true, Bool.and_eq_true] at ht
      exact hs.ready_of_active ht.1.1
    · exact hs.ready_of_pending h
  | readCompleted handle actual buffer =>
    dsimp only at h
    split_ifs at h
    · exact Bool.noConfusion h
    · exact hs.ready_of_pending h
  | _ => exact hs.ready_of_pending h

theorem Sound.observe_sampler (hs : s.Sound) (clock : Readings) (host : Host) (event : Event) :
    (s.observe clock host event).1.sampler.stride = s.sampler.stride ∧
      (s.observe clock host event).1.sampler.InStride := by
  rw [Session.observe_sampler]
  cases event with
  | instructionFetched cs ip =>
    dsimp only
    split_ifs
    · exact ⟨s.sampler.tick_stride, hs.inStride.tick⟩
    · exact ⟨rfl, hs.inStride⟩
  | _ => exact ⟨rfl, hs.inStride⟩

/-- An event keeps the invariant. -/
theorem Sound.observe (hs : s.Sound) (clock : Readings) (host : Host) (event : Event) :
    (s.observe clock host event).1.Sound := by
  have hsampler := hs.observe_sampler clock host event
  have hcases := hs.observe_cases clock host event
  refine ⟨?_, ?_, ?_, ?_, ?_, ?_, ?_, hsampler.2, ?_, hs.observe_tracked clock host event⟩
  · rw [observe_ready, observe_isSome]
    exact hs.ready_eq
  · rw [isActive, observe_ready]
    rcases hcases with ⟨ha, -⟩ | ⟨hact, -, -⟩ | ⟨-, hr, -, -⟩ | ⟨hact, -, -⟩
    · rw [ha]; exact hs.ready_of_active
    · exact fun _ => hs.ready_of_active hact
    · exact fun _ => hr
    · exact fun _ => hs.ready_of_active hact
  · rw [isActive]
    rcases hcases with ⟨ha, he⟩ | ⟨hact, -, he⟩ | ⟨-, -, -, he⟩ | ⟨hact, -, he⟩
    · rw [ha, he]; exact hs.epoch_of_active
    · rw [he]; exact fun _ => hs.epoch_of_active hact
    · rw [he]; exact fun _ => rfl
    · rw [he]; exact fun _ => hs.epoch_of_active hact
  · have hpush : (⟨true, s.activation.depth + 1⟩ : Activation).Grounded :=
      (⟨hs.grounded.nonneg, fun hf => Bool.noConfusion hf⟩ :
        (⟨true, s.activation.depth⟩ : Activation).Grounded).pushExec
    rcases hcases with ⟨ha, -⟩ | ⟨-, ha, -⟩ | ⟨-, -, ha, -⟩ | ⟨-, ha, -⟩
    · rw [ha]; exact hs.grounded
    · rw [ha]; exact hpush
    · rw [ha]; exact hpush
    · rw [ha]; exact hs.grounded.terminate
  · -- a load leaves a positive depth, and so does an exit that leaves tracing on
    have hnonneg := hs.grounded.nonneg
    rw [isActive, observe_config]
    rcases hcases with ⟨ha, -⟩ | ⟨-, ha, -⟩ | ⟨-, -, ha, -⟩ | ⟨hact, ha, -⟩
    · rw [ha]; exact hs.eager_of_depth
    · rw [ha]; intro _ h0; dsimp only at h0; omega
    · rw [ha]; intro _ h0; dsimp only at h0; omega
    · rw [ha, Activation.terminate_of_active hact]
      dsimp only
      split_ifs with hd
      · exact fun hf => Bool.noConfusion hf
      · intro _ h0; dsimp only at h0; omega
  · rw [observe_ready]
    exact hs.observe_pending clock host event
  · rw [hsampler.1, observe_config]
    exact hs.stride_eq
  · rw [observe_config]
    exact hs.inRange

/-! ### New options and the end -/

theorem Sound.isActive_eq_false (hs : s.Sound) (hr : s.ready = false) : s.isActive = false :=
  Bool.eq_false_iff.2 fun ha => Bool.noConfusion (hr.symm.trans (hs.ready_of_active ha))

theorem Sound.activation_of_not_ready (hs : s.Sound) (hready : s.ready = false) :
    s.activation = .off :=
  hs.grounded.eq_off (hs.isActive_eq_false hready)

/-- Tracing is on after new options exactly if they ask for it and the session accepts events. -/
theorem Sound.update_isActive (hs : s.Sound) (now : Duration) (c : Config) :
    (s.update now c).isActive = (s.ready && c.eager) := by
  rw [isActive, update_activation]
  rcases hr : s.ready with _ | _
  · exact hs.isActive_eq_false hr
  · rcases c.eager with _ | _
    · rfl
    · exact Activation.activate_active _

/-- New options keep the invariant. -/
theorem Sound.update (hs : s.Sound) (now : Duration) (c : Config) : (s.update now c).Sound where
  ready_eq := by
    rw [update_ready, update_isSome]
    exact hs.ready_eq
  ready_of_active := by
    rw [hs.update_isActive, update_ready, Bool.and_eq_true]
    exact And.left
  epoch_of_active := by
    rw [hs.update_isActive, update_epoch, Bool.and_eq_true]
    rintro ⟨hr, he⟩
    rw [hr, he, ← hs.ready_eq, hr]
    rcases ha : s.isActive with _ | _
    · exact Epoch.isSet_ensure _ _
    · exact hs.epoch_of_active ha
  grounded := by
    rw [update_activation]
    split_ifs
    · exact hs.grounded.activate
    · exact Activation.grounded_off
    · exact hs.grounded
  eager_of_depth := by
    rw [hs.update_isActive, update_config, Config.sanitized_eager, Bool.and_eq_true]
    exact fun h _ => h.2
  ready_of_pending := by
    rw [update_files, update_ready]
    exact hs.ready_of_pending
  stride_eq := by
    rw [update_sampler, Sampler.ensureStride_stride, update_config, Config.max_stride]
  inStride := by
    rw [update_sampler]
    exact hs.inStride.ensureStride _
  inRange := by
    rw [update_config]
    exact c.inRange_sanitized
  tracked := by
    rw [update_files]
    exact hs.tracked

/-- The end keeps the invariant: what it leaves is inactive, empty and without a sink. -/
theorem Sound.shutdown (hs : s.Sound) (world : World) (clock : Readings) :
    (s.step world clock .shutdown).1.Sound := by
  rw [step_shutdown_fst]
  exact
    { ready_eq := rfl
      ready_of_active := fun h => Bool.noConfusion h
      epoch_of_active := fun h => Bool.noConfusion h
      grounded := Activation.grounded_off
      eager_of_depth := fun h => Bool.noConfusion h
      ready_of_pending := fun h => Bool.noConfusion h
      stride_eq := hs.stride_eq
      inStride := hs.inStride
      inRange := hs.inRange
      tracked := HandleTable.tracked_empty }

/-- **Every call keeps the invariant.** -/
theorem Sound.step (hs : s.Sound) (world : World) (clock : Readings) (call : Call) :
    (s.step world clock call).1.Sound := by
  cases call with
  | event host event =>
    rw [step_event_fst]
    exact (hs.observe clock host event).emit world _
  | update c => exact hs.update (clock.nth 0) c
  | shutdown => exact hs.shutdown world clock

/-- The activation after a call: loads go one deeper, exits one back, new options and the end decide
for themselves, and nothing else matters. -/
theorem Sound.step_activation (hs : s.Sound) (world : World) (clock : Readings) (call : Call) :
    (s.step world clock call).1.activation =
      match call with
      | .event host (.programExec _ _) =>
        if s.isActive || (s.ready && loadActivates s.config host) then
          ⟨true, s.activation.depth + 1⟩
        else s.activation
      | .event _ (.programTerminated _) => s.activation.terminate.1
      | .event _ _ => s.activation
      | .update c =>
        if s.ready then if c.eager then ⟨true, s.activation.depth⟩ else .off else s.activation
      | .shutdown => .off := by
  cases call with
  | event host event =>
    rw [step_event_fst, emit_activation, observe_activation]
    cases event with
    | programExec filename cmdline =>
      dsimp only
      rw [← hs.ready_eq, Bool.and_self, hs.grounded.activate_eq]
      -- a session that traces is ready, so the two conditions agree
      rcases ha : s.isActive with _ | _
      · rw [Bool.false_or, Bool.false_or]
        rfl
      · rw [hs.ready_of_active ha]
        rfl
    | programTerminated exitCode =>
      dsimp only
      rw [← hs.ready_eq]
      rcases hr : s.ready with _ | _
      · rw [Activation.terminate_of_inactive (hs.isActive_eq_false hr)]
        rfl
      · rfl
    | _ => rfl
  | update c =>
    rw [step_update_fst, update_activation, hs.grounded.activate_eq]
  | shutdown => rw [step_shutdown_fst]

/-- A call makes the depth grow by a load at most. -/
theorem Sound.step_depth_le (hs : s.Sound) (world : World) (clock : Readings) (call : Call) :
    (s.step world clock call).1.activation.depth ≤
      s.activation.depth + if call.isLoad then 1 else 0 := by
  have hnonneg := hs.grounded.nonneg
  rw [hs.step_activation]
  cases call with
  | event host event =>
    cases event with
    | programExec filename cmdline =>
      show (if _ then _ else _ : Activation).depth ≤ s.activation.depth + 1
      split_ifs
      · exact Int.le_refl _
      · omega
    | programTerminated exitCode =>
      show s.activation.terminate.1.depth ≤ s.activation.depth + 0
      rcases ha : s.activation.active with _ | _
      · rw [Activation.terminate_of_inactive ha]
        show s.activation.depth ≤ s.activation.depth + 0
        omega
      · rw [Activation.terminate_of_active ha]
        dsimp only
        split_ifs
        · show 0 ≤ s.activation.depth + 0
          omega
        · dsimp only
          omega
    | _ => exact Int.le_of_eq (Int.add_zero _).symm
  | update c =>
    show (if _ then if _ then _ else _ else _ : Activation).depth ≤ s.activation.depth + 0
    split_ifs
    · dsimp only
      omega
    · show 0 ≤ s.activation.depth + 0
      omega
    · omega
  | shutdown =>
    show 0 ≤ s.activation.depth + 0
    omega

/-- Every history keeps the invariant. -/
theorem Sound.after (hs : s.Sound) (world : World) (h : History) : (s.after world h).Sound := by
  induction h using List.reverseRecOn with
  | nil => exact hs
  | append_singleton h entry ih =>
    rw [after_concat]
    exact ih.step _ entry.1 entry.2

end Session

namespace Setup

theorem sound_start (setup : Setup) (now : Duration) (world : World) :
    (setup.start now world).1.Sound where
  ready_eq := by rw [start_ready, start_isSome]
  ready_of_active := by
    rw [Session.isActive, start_activation, start_ready]
    split_ifs with he
    · exact fun _ => Config.enabled_of_eager he
    · exact fun h => Bool.noConfusion h
  epoch_of_active := by
    rw [Session.isActive, start_activation, start_epoch]
    split_ifs
    · exact fun _ => rfl
    · exact fun h => Bool.noConfusion h
  grounded := by
    rw [start_activation]
    split_ifs
    · exact ⟨Int.le_refl 0, fun _ => rfl⟩
    · exact Activation.grounded_off
  eager_of_depth := by
    rw [Session.isActive, start_activation, start_config, Config.sanitized_eager]
    split_ifs with he
    · exact fun _ _ => he
    · exact fun h => Bool.noConfusion h
  ready_of_pending := by
    rw [start_files]
    exact fun h => Bool.noConfusion h
  stride_eq := by
    rw [start_sampler, start_config]
    exact Config.max_stride _
  inStride := by
    rw [start_sampler]
    exact Sampler.inStride_ofStride _
  inRange := by
    rw [start_config]
    exact setup.config.inRange_sanitized
  tracked := by
    rw [start_files]
    exact HandleTable.tracked_empty

/-- Every reachable session is sound. -/
theorem sound_after (setup : Setup) (now : Duration) (world : World) (h : History) :
    (setup.after now world h).Sound :=
  (setup.sound_start now world).after _ h

/-- The depth is at most the number of loads that the session was told of. -/
theorem depth_after_le (setup : Setup) (now : Duration) (world : World) (h : History) :
    (setup.after now world h).activation.depth ≤ loads h := by
  refine (setup.after_induction now world
    (motive := fun h s => s.Sound ∧ s.activation.depth ≤ loads h) ?_ ?_ h).2
  · refine ⟨setup.sound_start now world, ?_⟩
    rw [start_activation]
    split_ifs <;> exact Int.le_refl 0
  · rintro h s world' entry ⟨hs, hd⟩
    refine ⟨hs.step world' entry.1 entry.2, ?_⟩
    have hstep := hs.step_depth_le world' entry.1 entry.2
    rw [loads_append, loads_singleton]
    split_ifs at hstep ⊢ <;> omega

/-- **The session invariant.** After every history of every session: the session is sound, tracks at
most 255 handles, and can count its sampler up without running over; and no depth exceeds the number
of loads, so that it fits a signed word of thirty-two bits as long as they are fewer than 2^31. -/
theorem session_invariant (setup : Setup) (now : Duration) (world : World) (h : History) :
    (setup.after now world h).Sound ∧
      (setup.after now world h).files.handles.size ≤ 255 ∧
      (setup.after now world h).sampler.counter.toNat + 1 < UInt32.size ∧
      (setup.after now world h).activation.depth ≤ loads h :=
  have hs := setup.sound_after now world h
  ⟨hs, hs.tracked.size_le, hs.inStride.counter_succ_lt, setup.depth_after_le now world h⟩

end Setup

end RealModeTrace
