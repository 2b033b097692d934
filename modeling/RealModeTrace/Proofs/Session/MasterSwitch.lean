import RealModeTrace.Proofs.Session.Programs

/-!
# The master switch

`enabled` is the master switch of the options, and options may be replaced while a session runs. The
start of a session and new options obey the switch. A load does not consult it: a session that was
started enabled and has disabled options since then begins a trace at the next load.

* `Setup.optionsAfter`, `Setup.acceptsAfter`: the options in force and whether events are accepted,
  read off the history;
* `Setup.Strays`: a load of the history begins a trace under disabled options;
* `Setup.obeys_switch_iff`: the switch is obeyed throughout a history exactly if no load strays;
* `Setup.switch_disobeyed`: a history in which one does.
-/

namespace RealModeTrace.Setup

variable (setup : Setup)

/-! ### What the history decides -/

/-- The options in force after a history: the latest that were given. -/
def optionsAfter (h : History) : Config :=
  ((h.filterMap (·.2.newConfig?)).getLast?.getD setup.config).sanitized

/-- Events are accepted after a history: the session was started enabled and has not been ended. -/
def acceptsAfter (h : History) : Bool :=
  setup.config.enabled && h.all fun entry => !entry.2.isShutdown

theorem optionsAfter_concat (h : History) (entry : Readings × Session.Call) :
    setup.optionsAfter (h ++ [entry]) =
      (entry.2.newConfig?.map Config.sanitized).getD (setup.optionsAfter h) := by
  unfold optionsAfter
  rw [List.filterMap_append, List.filterMap_cons, List.filterMap_nil]
  rcases entry.2.newConfig? with _ | c
  · rw [List.append_nil]
    rfl
  · rw [List.getLast?_concat]
    rfl

theorem acceptsAfter_concat (h : History) (entry : Readings × Session.Call) :
    setup.acceptsAfter (h ++ [entry]) = (setup.acceptsAfter h && !entry.2.isShutdown) := by
  unfold acceptsAfter
  rw [List.all_append, List.all_cons, List.all_nil, Bool.and_true, Bool.and_assoc]

/-- No events are accepted by a session that was started disabled or has been ended. -/
theorem acceptsAfter_eq_false_iff {h : History} : setup.acceptsAfter h = false ↔
    setup.config.enabled = false ∨ ∃ entry ∈ h, entry.2.isShutdown = true := by
  rw [acceptsAfter, Bool.and_eq_false_iff, List.all_eq_false]
  simp only [Bool.not_eq_true, Bool.not_eq_false']

variable (now : Duration) (world : World)

theorem after_config (h : History) :
    (setup.after now world h).config = setup.optionsAfter h := by
  refine setup.after_induction now world
    (motive := fun h s => s.config = setup.optionsAfter h) ?_ ?_ h
  · exact setup.start_config now world
  · intro h s world' entry ih
    rw [Session.step_config, optionsAfter_concat, ih]

theorem after_ready (h : History) :
    (setup.after now world h).ready = setup.acceptsAfter h := by
  refine setup.after_induction now world
    (motive := fun h s => s.ready = setup.acceptsAfter h) ?_ ?_ h
  · rw [start_ready]
    exact (Bool.and_true _).symm
  · intro h s world' entry ih
    rw [Session.step_ready, acceptsAfter_concat, ih]

/-- The console is used for the reason that the log was not opened for. -/
theorem after_fallback (h : History) : (setup.after now world h).fallback =
    if setup.config.enabled then (setup.openSink world).2.2 else none := by
  refine setup.after_induction now world
    (motive := fun _ s => s.fallback =
      if setup.config.enabled then (setup.openSink world).2.2 else none) ?_ ?_ h
  · exact setup.start_fallback now world
  · intro h s world' entry ih
    rw [Session.step_fallback, ih]

/-! ### Loads that stray -/

/-- A load that begins a trace under disabled options, unless one is running. -/
def StraysAt (before : History) (call : Session.Call) : Prop :=
  setup.acceptsAfter before = true ∧ (setup.optionsAfter before).enabled = false ∧
    call.activates (setup.optionsAfter before) = true

/-- Some load of the history begins a trace under disabled options. -/
def Strays (h : History) : Prop :=
  ∃ before entry, before ++ [entry] <+: h ∧ setup.StraysAt before entry.2

variable {setup}

theorem Strays.mono {h k : History} (hp : h <+: k) : setup.Strays h → setup.Strays k :=
  fun ⟨before, entry, hb, hs⟩ => ⟨before, entry, hb.trans hp, hs⟩

/-- After a stray load tracing is on under disabled options, and something was written. -/
theorem StraysAt.disobeys {before : History} {entry : Readings × Session.Call}
    (h : setup.StraysAt before entry.2) :
    (setup.after now world (before ++ [entry])).isActive = true ∧
      (setup.after now world (before ++ [entry])).config.enabled = false ∧
      (setup.after now world before).config.enabled = false ∧
      entry.2.isLoad = true ∧
      (setup.after now world before).answer entry ≠ [] := by
  have hs := setup.sound_after now world before
  obtain ⟨hready, hoff, hactivates⟩ := h
  rw [← setup.after_ready now world] at hready
  rw [← setup.after_config now world] at hoff hactivates
  obtain ⟨t, call⟩ := entry
  obtain ⟨host, filename, cmdline, rfl, hload⟩ := Session.Call.exists_of_activates hactivates
  refine ⟨?_, ?_, hoff, rfl, ?_⟩
  · rw [after_concat, hs.step_isActive]
    dsimp only
    rw [hready, hload]
    exact Bool.or_true _
  · -- a load leaves the options alone
    rw [after_concat, Session.step_config]
    exact hoff
  · rw [hs.answer_load, hready, hload]
    split_ifs with _ hf
    · exact List.cons_ne_nil _ _
    · exact List.cons_ne_nil _ _
    · exact absurd rfl hf

/-- As long as no load strays, tracing is on only under enabled options. -/
theorem enabled_of_active {h : History} (hn : ¬ setup.Strays h)
    (ha : (setup.after now world h).isActive = true) :
    (setup.after now world h).config.enabled = true := by
  induction h using List.reverseRecOn with
  | nil =>
    rw [after_nil, Session.isActive, start_activation] at ha
    rw [after_nil, start_config]
    split_ifs at ha with he
    · exact Config.enabled_of_eager he
    · exact Bool.noConfusion ha
  | append_singleton h entry ih =>
    have hs := setup.sound_after now world h
    replace ih := ih fun hst => hn (hst.mono (List.prefix_append _ _))
    rw [after_concat, Session.step_config]
    rw [after_concat, hs.step_isActive] at ha
    obtain ⟨t, call⟩ := entry
    cases call with
    | event host event =>
      cases event with
      | programExec filename cmdline =>
        rcases Bool.or_eq_true_iff.1 ha with ha | ha
        · exact ih ha
        · -- this load begins the trace, so it would stray under disabled options
          obtain ⟨hready, hload⟩ := Bool.and_eq_true_iff.1 ha
          rw [after_ready] at hready
          rw [after_config] at hload
          show (setup.after now world h).config.enabled = true
          rw [after_config]
          refine Bool.of_not_eq_false fun hoff => hn ?_
          exact ⟨h, _, List.prefix_refl _, hready, hoff, hload⟩
      | programTerminated exitCode => exact ih (Bool.and_eq_true_iff.1 ha).1
      | _ => exact ih ha
    | update c => exact Config.enabled_of_eager (Bool.and_eq_true_iff.1 ha).2
    | shutdown => exact Bool.noConfusion ha

/-- As long as no load strays, a load under disabled options writes nothing. -/
theorem answer_eq_nil_of_disabled {before : History} {entry : Readings × Session.Call}
    (hn : ¬ setup.Strays (before ++ [entry])) (hl : entry.2.isLoad = true)
    (hoff : (setup.after now world before).config.enabled = false) :
    (setup.after now world before).answer entry = [] := by
  have hs := setup.sound_after now world before
  have ha : (setup.after now world before).isActive = false :=
    Bool.eq_false_iff.2 fun ha => by
      have := enabled_of_active now world (fun hst => hn (hst.mono (List.prefix_append _ _))) ha
      exact Bool.noConfusion (hoff.symm.trans this)
  obtain ⟨t, call⟩ := entry
  obtain ⟨host, filename, cmdline, rfl⟩ := Session.Call.exists_of_isLoad hl
  rw [hs.answer_load, ha, if_neg Bool.false_ne_true]
  refine if_neg fun hload => hn ?_
  obtain ⟨hready, hload⟩ := Bool.and_eq_true_iff.1 hload
  rw [after_ready] at hready
  rw [after_config] at hoff hload
  exact ⟨before, _, List.prefix_refl _, hready, hoff, hload⟩

variable (setup)

/-- **When the master switch is obeyed.** Throughout a history, tracing is on only under enabled
options exactly if no load strays; and loads under disabled options write nothing exactly if no load
strays. -/
theorem obeys_switch_iff (h : History) :
    ((∀ before, before <+: h → (setup.after now world before).isActive = true →
        (setup.after now world before).config.enabled = true) ↔ ¬ setup.Strays h) ∧
      ((∀ before entry, before ++ [entry] <+: h → entry.2.isLoad = true →
        (setup.after now world before).config.enabled = false →
        (setup.after now world before).answer entry = []) ↔ ¬ setup.Strays h) := by
  refine ⟨⟨?_, ?_⟩, ⟨?_, ?_⟩⟩
  · rintro hobeys ⟨before, entry, hp, hst⟩
    obtain ⟨hactive, hoff, -⟩ := hst.disobeys now world
    exact Bool.noConfusion (hoff.symm.trans (hobeys _ hp hactive))
  · intro hn before hp
    exact enabled_of_active now world fun hst => hn (hst.mono hp)
  · rintro hobeys ⟨before, entry, hp, hst⟩
    obtain ⟨-, -, hoff, hload, hanswer⟩ := hst.disobeys now world
    exact hanswer (hobeys before entry hp hload hoff)
  · intro hn before entry hp
    exact answer_eq_nil_of_disabled now world fun hst => hn (hst.mono hp)

/-! ### A history in which a load strays -/

/-- The switch is turned off. -/
def turnedOff : History := [(0, .update { enabled := false })]

/-- A program is loaded, on a machine that is all zeros. -/
def plainLoad : Readings × Session.Call :=
  (0, .event ⟨{}, fun _ => 0, false⟩ (.programExec "A.EXE" none))

/-- The switch is turned off, the load after that turns tracing on, and two lines are written. -/
theorem switch_disobeyed :
    (({ config := { enabled := true } } : Setup).after 0 {} (turnedOff ++ [plainLoad])).isActive ∧
      (({ config := { enabled := true } } : Setup).after 0 {}
        (turnedOff ++ [plainLoad])).config.enabled = false ∧
      (({ config := { enabled := true } } : Setup).after 0 {} turnedOff).config.enabled = false ∧
      (({ config := { enabled := true } } : Setup).after 0 {} turnedOff).answer plainLoad =
        [.timed 0 (.exec "A.EXE" "" 0), .timed 0 .activated] := by
  decide +kernel

end RealModeTrace.Setup
