import RealModeTrace.Proofs.Session.Sampling

/-!
# New options

Options may be replaced at any time. The sink stays, and so does whatever is remembered of files;
whether tracing is on follows from the new options, if events are accepted at all.

* `Session.update_writer`: of the writer at most the epoch is new;
* `Session.update_update`: the same options, given again, change nothing;
* `Session.TakesOptions`: what new options do to a session; `Session.Sound.takesOptions`: they do
  that in every sound session;
* `Setup.isSet_epoch_iff`: there is an epoch as soon as tracing has been on;
* `Setup.ReplacesOptions`: what new options do after a history; `Setup.options_replaced`: they do it
  after every history.
-/

namespace RealModeTrace

theorem Config.eager_iff {c : Config} :
    c.eager = true ↔ c.enabled = true ∧ c.waitForLoad = false := by
  rw [eager, Bool.and_eq_true, Bool.not_eq_true']

theorem Config.stride_sanitized (c : Config) : c.sanitized.stride = c.stride :=
  c.max_stride

theorem Sampler.ensureStride_again (s : Sampler) (stride : UInt32) :
    (s.ensureStride stride).ensureStride stride = s.ensureStride stride :=
  ensureStride_of_eq (s.ensureStride_stride stride).symm

theorem Activation.activate_again (a : Activation) : a.activate.activate = a.activate :=
  activate_of_active a.activate_active

namespace Session

variable (s : Session) (now later : Duration) (c : Config)

/-- Of the writer at most the epoch is new. -/
theorem update_writer : (s.update now c).writer =
    s.writer.map fun w => { w with epoch := (s.update now c).epoch } := by
  unfold epoch
  rw [update_eq]
  rcases s.writer with _ | w
  · simp
  · simp only [Option.map_some]
    split_ifs <;> rfl

/-- The same options, given again, change nothing, at whatever reading. -/
theorem update_update : (s.update now c).update later c = s.update now c := by
  have hsanitized : c.sanitized = (s.update now c).config := by rw [update_config]
  have hsampler : (s.update now c).sampler.ensureStride c.sanitized.stride =
      (s.update now c).sampler := by
    rw [update_sampler, Sampler.ensureStride_again]
  have hactivation : (if (s.update now c).ready then
      if c.eager then (s.update now c).activation.activate else .off
      else (s.update now c).activation) = (s.update now c).activation := by
    rw [update_ready, update_activation]
    split_ifs
    · exact s.activation.activate_again
    · rfl
    · rfl
  -- what could set an epoch is that tracing is off under eager options
  have hquiet : ((s.update now c).ready && c.eager && !(s.update now c).isActive) = false := by
    rw [update_ready, isActive, update_activation]
    rcases s.ready with _ | _
    · rfl
    · rcases c.eager with _ | _
      · rfl
      · rw [if_pos rfl, if_pos rfl, Activation.activate_active]
        rfl
  rw [update_eq (s.update now c), hsampler, hactivation, hquiet, hsanitized]
  rfl

variable {s}

/-- What new options do to a session at readings of the clock. -/
structure TakesOptions (s : Session) (world : World) (clock : Readings) (c : Config) : Prop where
  /-- Nothing is written. -/
  silent : s.step world clock (.update c) = (s.update (clock.nth 0) c, world, [])
  /-- The options are in force, their numbers moved to the nearest bound. -/
  config_eq : (s.update (clock.nth 0) c).config = c.sanitized
  /-- If events are accepted, tracing is on exactly under enabled options that wait for no load. -/
  active_iff : s.ready = true →
    ((s.update (clock.nth 0) c).isActive = true ↔ c.enabled = true ∧ c.waitForLoad = false)
  /-- A trace that goes on keeps its depth and its epoch. -/
  continued : s.isActive = true → (s.update (clock.nth 0) c).isActive = true →
    (s.update (clock.nth 0) c).activation.depth = s.activation.depth ∧
      (s.update (clock.nth 0) c).epoch = s.epoch
  /-- A trace that begins has depth zero. An epoch that there is stays. -/
  begun : s.isActive = false → (s.update (clock.nth 0) c).isActive = true →
    (s.update (clock.nth 0) c).activation.depth = 0 ∧
      (s.update (clock.nth 0) c).epoch =
        if s.epoch.isSet then s.epoch else .startingAt (clock.nth 0)
  /-- While tracing is off, the depth is zero. An epoch that there is stays then, too. -/
  ended : (s.update (clock.nth 0) c).isActive = false →
    (s.update (clock.nth 0) c).activation.depth = 0 ∧ (s.update (clock.nth 0) c).epoch = s.epoch
  /-- As long as the stride stays, so does the count of instructions. -/
  phase_kept : c.stride = s.config.stride → (s.update (clock.nth 0) c).sampler = s.sampler
  /-- A new stride begins a new count. -/
  phase_lost : c.stride ≠ s.config.stride → (s.update (clock.nth 0) c).sampler = ⟨c.stride, 0⟩
  /-- The handles, the read that waits, the sink and the counts of lines, the line buffer, the
  fallback, and whether events are accepted: all that stays. -/
  framed : s.update (clock.nth 0) c =
    { s with
      config := (s.update (clock.nth 0) c).config
      activation := (s.update (clock.nth 0) c).activation
      writer := s.writer.map fun w => { w with epoch := (s.update (clock.nth 0) c).epoch }
      sampler := (s.update (clock.nth 0) c).sampler }
  /-- If no events are accepted, only the options and the sampler are new. -/
  closed : s.ready = false → s.update (clock.nth 0) c =
    { s with config := c.sanitized, sampler := (s.update (clock.nth 0) c).sampler }
  /-- The same options again change nothing, whenever they come. -/
  again : ∀ later, (s.update (clock.nth 0) c).step world later (.update c) =
    (s.update (clock.nth 0) c, world, [])

/-- **What new options do**, in every sound session. -/
theorem Sound.takesOptions (hs : s.Sound) (world : World) (clock : Readings) (c : Config) :
    s.TakesOptions world clock c := by
  have hactive := hs.update_isActive (clock.nth 0) c
  have hactivation := hs.step_activation world clock (.update c)
  rw [step_update_fst] at hactivation
  dsimp only at hactivation
  have hepoch := s.update_epoch (clock.nth 0) c
  rw [← hs.ready_eq] at hepoch
  constructor
  case silent => rfl
  case config_eq => exact s.update_config (clock.nth 0) c
  case active_iff =>
    intro hr
    rw [hactive, hr, Bool.true_and]
    exact Config.eager_iff
  case continued =>
    intro ha hon
    rw [hactive, Bool.and_eq_true] at hon
    rw [hactivation, hepoch, hon.1, hon.2, ha]
    exact ⟨rfl, rfl⟩
  case begun =>
    intro ha hon
    rw [hactive, Bool.and_eq_true] at hon
    rw [hactivation, hepoch, hon.1, hon.2, ha]
    exact ⟨hs.grounded.of_inactive ha, rfl⟩
  case ended =>
    intro hoff
    refine ⟨(hs.update (clock.nth 0) c).grounded.of_inactive hoff, ?_⟩
    rw [hactive] at hoff
    rw [hepoch, hoff, Bool.false_and, Bool.false_and]
    rfl
  case phase_kept =>
    intro hstride
    rw [update_sampler, Config.stride_sanitized]
    refine Sampler.ensureStride_of_eq ?_
    rw [Config.max_stride, hs.stride_eq, hstride]
  case phase_lost =>
    intro hstride
    have hnew := hs.step_sampler_of_ne world (clock, .update c)
    rw [step_update_fst, update_config, Config.stride_sanitized] at hnew
    exact hnew hstride
  case framed =>
    rw [← update_writer, update_eq]
  case closed =>
    intro hr
    rw [update_eq, hr]
    rfl
  case again =>
    intro later
    exact Prod.ext (s.update_update (clock.nth 0) (later.nth 0) c) rfl

end Session

namespace Setup

variable (setup : Setup) (now : Duration) (world : World)

/-- While events are accepted there is an epoch exactly if tracing is on or has been on. -/
theorem isSet_epoch_iff {h : History} (hready : (setup.after now world h).ready = true) :
    (setup.after now world h).epoch.isSet = true ↔
      ∃ before, before <+: h ∧ (setup.after now world before).isActive = true := by
  induction h using List.reverseRecOn with
  | nil =>
    have hiff : (setup.after now world []).epoch.isSet = true ↔
        (setup.after now world []).isActive = true := by
      rw [after_nil, start_epoch, Session.isActive, start_activation]
      split_ifs <;> exact Iff.rfl
    rw [hiff]
    constructor
    · exact fun ha => ⟨[], List.nil_prefix, ha⟩
    · rintro ⟨before, hp, ha⟩
      exact List.prefix_nil.1 hp ▸ ha
  | append_singleton h entry ih =>
    have hs := setup.sound_after now world h
    rw [after_concat, Session.step_ready, Bool.and_eq_true, Bool.not_eq_true'] at hready
    have hcut (before : History) : before <+: h ++ [entry] ↔
        before = h ++ [entry] ∨ before <+: h := List.prefix_concat_iff
    have hstep := hs.step_epoch (setup.worldAfter now world h) entry.1 entry.2
    rw [← after_concat, hready.2, if_neg Bool.false_ne_true] at hstep
    constructor
    · intro hset
      rcases hon : (setup.after now world (h ++ [entry])).isActive with _ | _
      · rw [hstep, hon, Bool.and_false, Bool.false_and, if_neg Bool.false_ne_true] at hset
        obtain ⟨before, hp, ha⟩ := (ih hready.1).1 hset
        exact ⟨before, (hcut before).2 (Or.inr hp), ha⟩
      · exact ⟨h ++ [entry], List.prefix_refl _, hon⟩
    · rintro ⟨before, hp, ha⟩
      rcases (hcut before).1 hp with rfl | hp
      · exact (setup.sound_after now world (h ++ [entry])).epoch_of_active ha
      · rw [hstep]
        split_ifs
        · rfl
        · exact (ih hready.1).2 ⟨before, hp, ha⟩

/-- What new options do after a history. -/
structure ReplacesOptions (h : History) : Prop where
  taken : ∀ clock c,
    (setup.after now world h).TakesOptions (setup.worldAfter now world h) clock c
  /-- No line comes with them. -/
  lines_eq : ∀ clock c,
    setup.lines now world (h ++ [(clock, .update c)]) = setup.lines now world h
  /-- A trace that they begin after there was one before counts its time from where it did then; the
  first trace counts from now. -/
  epoch_eq : ∀ clock c, (setup.after now world h).ready = true →
    (setup.after now world h).isActive = false →
    (setup.after now world (h ++ [(clock, .update c)])).isActive = true →
    ((∃ before, before <+: h ∧ (setup.after now world before).isActive = true) →
      (setup.after now world (h ++ [(clock, .update c)])).epoch =
        (setup.after now world h).epoch) ∧
    ((∀ before, before <+: h → (setup.after now world before).isActive = false) →
      (setup.after now world (h ++ [(clock, .update c)])).epoch = .startingAt (clock.nth 0))
  /-- Given twice, they leave what they leave when given once. -/
  twice : ∀ clock later c,
    setup.after now world (h ++ [(clock, .update c), (later, .update c)]) =
      setup.after now world (h ++ [(clock, .update c)])

/-- **Options are replaced.** After every history of every session, new options are in force without
a line being written. If events are accepted, tracing is on exactly if the options are enabled and
wait for no load: a trace that goes on keeps its depth and epoch, one that begins has depth zero and
takes up the epoch there is or else begins one, and no trace leaves depth zero. The count of
instructions goes on exactly if the stride stays; handles, the read that waits, the sink, the counts
of lines and the fallback are left alone, and if no events are accepted all but options and sampler
are. To give the same options again changes nothing. -/
theorem options_replaced (h : History) : setup.ReplacesOptions now world h where
  taken clock c := (setup.sound_after now world h).takesOptions _ clock c
  lines_eq clock c := by
    rw [lines, trace_concat]
    exact congrArg (List.map Record.text) (List.append_nil _)
  epoch_eq clock c hready hoff hon := by
    have htaken := (setup.sound_after now world h).takesOptions (setup.worldAfter now world h)
      clock c
    rw [after_concat] at hon ⊢
    obtain ⟨-, hepoch⟩ := htaken.begun hoff hon
    have hset := setup.isSet_epoch_iff now world hready
    refine ⟨fun hbefore => ?_, fun hnever => ?_⟩
    · exact hepoch.trans (if_pos (hset.2 hbefore))
    · refine hepoch.trans (if_neg fun hf => ?_)
      obtain ⟨before, hp, ha⟩ := hset.1 hf
      exact Bool.noConfusion (ha.symm.trans (hnever before hp))
  twice clock later c := by
    have hcons : h ++ [(clock, Session.Call.update c), (later, .update c)] =
        (h ++ [(clock, .update c)]) ++ [(later, .update c)] := by
      rw [List.append_assoc]
      rfl
    rw [hcons, after_concat, after_concat]
    exact Session.update_update _ (clock.nth 0) (later.nth 0) c

end Setup

end RealModeTrace
