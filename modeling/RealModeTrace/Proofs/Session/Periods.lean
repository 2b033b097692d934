import RealModeTrace.Proofs.Session.Programs

/-!
# Periods of tracing

While a session is told of events alone, tracing goes on in periods. A period is open from the
start, or a load opens it; it lasts until as many programs have exited in it as were loaded in it,
the load that opened it included.

* `running`: the number of programs that run after a history;
* `Unclosed`: no exit of a history closes the period that the history lies in;
* `Session.Opens`: a period is open after a history, with a number of programs running in it;
* `Session.Sound.lasts_iff`: a period lasts through a history exactly if that is unclosed;
* `Session.Within.activation`: within a period the depth is the number of running programs.
-/

namespace RealModeTrace

/-- The history has neither new options nor the end of the session. -/
def OnlyEvents (h : History) : Prop :=
  ∀ entry ∈ h, entry.2.isEvent = true

instance (h : History) : Decidable (OnlyEvents h) :=
  inferInstanceAs (Decidable (∀ entry ∈ h, entry.2.isEvent = true))

theorem onlyEvents_append {h k : History} : OnlyEvents (h ++ k) ↔ OnlyEvents h ∧ OnlyEvents k :=
  List.forall_mem_append

theorem OnlyEvents.concat {h : History} {entry : Readings × Session.Call}
    (hev : OnlyEvents (h ++ [entry])) : OnlyEvents h ∧ entry.2.isEvent = true :=
  ⟨(onlyEvents_append.1 hev).1, hev entry List.mem_concat_self⟩

theorem OnlyEvents.of_prefix {h k : History} (hev : OnlyEvents k) (hp : h <+: k) : OnlyEvents h :=
  fun entry he => hev entry (hp.subset he)

/-! ### Counting loads and exits -/

/-- No exit of the history brings the exits up to the number of loads, of which `opened` were made
before it. -/
def Unclosed (opened : Nat) (h : History) : Prop :=
  ∀ before entry, before ++ [entry] <+: h → entry.2.isExit = true →
    exits (before ++ [entry]) < opened + loads (before ++ [entry])

/-- The number of programs that are running after a history, if `opened` were running before. -/
def running (opened : Nat) (h : History) : Int :=
  opened + loads h - exits h

section Counting

variable {opened : Nat} {h k : History} {entry : Readings × Session.Call}

theorem running_of_isExit (opened : Nat) (h : History) (hx : entry.2.isExit = true) :
    running opened (h ++ [entry]) = running opened h - 1 := by
  obtain ⟨hl', hx'⟩ := counts_of_isExit h hx
  unfold running
  rw [hl', hx']
  omega

theorem unclosed_nil (opened : Nat) : Unclosed opened [] := by
  intro before entry hp
  exact absurd (List.prefix_nil.1 hp) (List.append_ne_nil_of_right_ne_nil _ (List.cons_ne_nil _ _))

theorem Unclosed.mono (hu : Unclosed opened k) (hp : h <+: k) : Unclosed opened h :=
  fun before entry hb => hu before entry (hb.trans hp)

theorem unclosed_concat : Unclosed opened (h ++ [entry]) ↔ Unclosed opened h ∧
    (entry.2.isExit = true → exits (h ++ [entry]) < opened + loads (h ++ [entry])) := by
  constructor
  · intro hu
    exact ⟨hu.mono (List.prefix_append _ _), hu h entry (List.prefix_refl _)⟩
  · rintro ⟨hu, hx⟩ before last hp
    rcases List.prefix_concat_iff.1 hp with heq | hp
    · obtain ⟨rfl, rfl⟩ := List.append_singleton_inj.1 heq
      exact hx
    · exact hu before last hp

/-- A history without exits closes nothing. -/
theorem unclosed_of_exits_eq_zero (hx : exits h = 0) : Unclosed opened h := by
  rintro before entry ⟨rest, rfl⟩ hxe
  rw [exits_append, (counts_of_isExit before hxe).2] at hx
  omega

/-- A history with fewer exits than programs were running before it closes nothing. -/
theorem unclosed_of_exits_lt (hx : exits h < opened) : Unclosed opened h := by
  rintro before entry ⟨rest, rfl⟩ -
  rw [exits_append] at hx
  omega

/-- In an unclosed history no more programs exit than are running. -/
theorem Unclosed.exits_le (hu : Unclosed opened h) : exits h ≤ opened + loads h := by
  induction h using List.reverseRecOn with
  | nil => exact Nat.zero_le _
  | append_singleton h entry ih =>
    obtain ⟨hu, hx⟩ := unclosed_concat.1 hu
    replace ih := ih hu
    by_cases hxe : entry.2.isExit = true
    · exact Nat.le_of_lt (hx hxe)
    · rw [exits_append, loads_append, exits_singleton, if_neg hxe]
      omega

/-- No program is running at the end of an unclosed history only if none was at its beginning, and
none was loaded. -/
theorem Unclosed.eq_zero (hu : Unclosed opened h) (heq : exits h = opened + loads h) :
    opened = 0 ∧ loads h = 0 := by
  induction h using List.reverseRecOn with
  | nil => exact ⟨by simpa using heq.symm, rfl⟩
  | append_singleton h entry ih =>
    obtain ⟨hu, hx⟩ := unclosed_concat.1 hu
    have hbound := hu.exits_le
    rcases hxe : entry.2.isExit with _ | _
    · rcases hle : entry.2.isLoad with _ | _
      · obtain ⟨hl', hx'⟩ := counts_of_other h hle hxe
        rw [hl', hx'] at heq
        rw [hl']
        exact ih hu heq
      · -- the program that was just loaded is still running
        obtain ⟨hl', hx'⟩ := counts_of_isLoad h hle
        omega
    · exact absurd heq (Nat.ne_of_lt (hx hxe))

end Counting

namespace Session

variable {s : Session} {opened : Nat} {h : History} {entry : Readings × Call}

/-! ### The activation under events -/

theorem step_config_of_isEvent (world : World) (he : entry.2.isEvent = true) :
    (s.step world entry.1 entry.2).1.config = s.config := by
  obtain ⟨clock, call⟩ := entry
  obtain ⟨host, event, rfl⟩ : ∃ host event, call = .event host event := Call.exists_of_isEvent he
  exact s.step_config world clock (.event host event)

theorem step_ready_of_isEvent (world : World) (he : entry.2.isEvent = true) :
    (s.step world entry.1 entry.2).1.ready = s.ready := by
  obtain ⟨clock, call⟩ := entry
  obtain ⟨host, event, rfl⟩ : ∃ host event, call = .event host event := Call.exists_of_isEvent he
  exact (s.step_ready world clock (.event host event)).trans (Bool.and_true _)

/-- Events leave the options and the readiness alone. -/
theorem after_of_onlyEvents (world : World) (hev : OnlyEvents h) :
    (s.after world h).config = s.config ∧ (s.after world h).ready = s.ready := by
  induction h using List.reverseRecOn with
  | nil => exact ⟨rfl, rfl⟩
  | append_singleton h entry ih =>
    obtain ⟨hc, hr⟩ := ih hev.concat.1
    rw [after_concat, step_config_of_isEvent _ hev.concat.2, step_ready_of_isEvent _ hev.concat.2]
    exact ⟨hc, hr⟩

/-- The activation after an event, by what the event is. -/
theorem Sound.event_activation (hs : s.Sound) (world : World) (he : entry.2.isEvent = true) :
    (s.step world entry.1 entry.2).1.activation =
      if entry.2.isLoad then
        if s.isActive || (s.ready && entry.2.activates s.config) then
          ⟨true, s.activation.depth + 1⟩
        else s.activation
      else if entry.2.isExit then s.activation.terminate.1
      else s.activation := by
  obtain ⟨clock, call⟩ := entry
  obtain ⟨host, event, rfl⟩ : ∃ host event, call = .event host event := Call.exists_of_isEvent he
  rw [hs.step_activation]
  cases event <;> rfl

/-- As long as nothing closes a period, the depth is the number of programs that are running. -/
theorem Sound.activation_of_unclosed (hs : s.Sound) (world : World)
    (ha : s.activation = ⟨true, opened⟩) (hev : OnlyEvents h) (hu : Unclosed opened h) :
    (s.after world h).activation = ⟨true, running opened h⟩ := by
  unfold running
  induction h using List.reverseRecOn with
  | nil =>
    rw [after_nil, ha, loads_nil, exits_nil, Int.natCast_zero, Int.add_zero, Int.sub_zero]
  | append_singleton h entry ih =>
    obtain ⟨hu, hx⟩ := unclosed_concat.1 hu
    replace ih := ih hev.concat.1 hu
    have hactive : (s.after world h).isActive = true := congrArg Activation.active ih
    rw [after_concat, (hs.after world h).event_activation _ hev.concat.2, hactive, Bool.true_or,
      if_pos rfl]
    rcases hxe : entry.2.isExit with _ | _
    · rcases hle : entry.2.isLoad with _ | _
      · obtain ⟨hl, hx⟩ := counts_of_other h hle hxe
        rw [hl, hx]
        exact ih
      · obtain ⟨hl, hx⟩ := counts_of_isLoad h hle
        rw [hl, hx, ih, if_pos rfl]
        exact congrArg (Activation.mk true) (by dsimp only; omega)
    · -- the history goes on unclosed, so that this exit leaves a program running
      obtain ⟨hl', hx'⟩ := counts_of_isExit h hxe
      have hlt := hx hxe
      rw [hl', hx'] at hlt ⊢
      rw [Call.isLoad_eq_false_of_isExit hxe, if_neg Bool.false_ne_true, if_pos rfl,
        Activation.terminate_of_active hactive, ih]
      dsimp only
      rw [if_neg (by omega)]
      exact congrArg (Activation.mk true) (by omega)

/-- A period goes on after an event unless the event is the exit that closes it. -/
theorem Sound.isActive_concat (hs : s.Sound) (world : World) (ha : s.activation = ⟨true, opened⟩)
    (hev : OnlyEvents (h ++ [entry])) (hu : Unclosed opened h) :
    (s.after world (h ++ [entry])).isActive = true ↔
      (entry.2.isExit = true → exits (h ++ [entry]) < opened + loads (h ++ [entry])) := by
  have hact := hs.activation_of_unclosed world ha hev.concat.1 hu
  have hactive : (s.after world h).isActive = true := congrArg Activation.active hact
  unfold running at hact
  rw [after_concat, isActive, (hs.after world h).event_activation _ hev.concat.2, hactive,
    Bool.true_or, if_pos rfl]
  rcases hxe : entry.2.isExit with _ | _
  · refine iff_of_true ?_ fun hf => Bool.noConfusion hf
    rcases entry.2.isLoad with _ | _
    · exact hactive
    · rfl
  · obtain ⟨hl', hx'⟩ := counts_of_isExit h hxe
    rw [Call.isLoad_eq_false_of_isExit hxe, if_neg Bool.false_ne_true, if_pos rfl,
      Activation.terminate_active, hact, Bool.true_and, decide_eq_true_iff, hl', hx']
    dsimp only
    refine ⟨fun hd _ => by omega, fun hlt => ?_⟩
    have := hlt rfl
    omega

/-- A period lasts through a history exactly if no exit in it closes the period. -/
theorem Sound.lasts_iff (hs : s.Sound) (world : World) (ha : s.activation = ⟨true, opened⟩)
    (hev : OnlyEvents h) :
    (∀ p, p <+: h → (s.after world p).isActive = true) ↔ Unclosed opened h := by
  constructor
  · intro hactive
    induction h using List.reverseRecOn with
    | nil => exact unclosed_nil opened
    | append_singleton h entry ih =>
      have hu := ih hev.concat.1 fun p hp => hactive p (hp.trans (List.prefix_append _ _))
      refine unclosed_concat.2 ⟨hu, ?_⟩
      exact (hs.isActive_concat world ha hev hu).1 (hactive _ (List.prefix_refl _))
  · intro hu p hp
    exact congrArg Activation.active
      (hs.activation_of_unclosed world ha (hev.of_prefix hp) (hu.mono hp))

/-! ### Periods -/

/-- A period of tracing is open after a history, and as many programs are running in it: either it
is open from the beginning, or the last call of the history opens it. -/
inductive Opens (s : Session) (world : World) : History → Nat → Prop
  | standing (ha : s.isActive = true) : Opens s world [] s.activation.depth.toNat
  | load (before : History) (entry : Readings × Call)
      (hoff : (s.after world before).isActive = false)
      (hon : (s.after world (before ++ [entry])).isActive = true) :
      Opens s world (before ++ [entry]) 1

/-- While tracing is off, an event switches it on exactly if it is a load that may do so. -/
theorem Sound.begins_iff (hs : s.Sound) (world : World) (hready : s.ready = true)
    (hev : OnlyEvents (h ++ [entry])) (hoff : (s.after world h).isActive = false) :
    (s.after world (h ++ [entry])).isActive = true ↔ entry.2.activates s.config = true := by
  obtain ⟨hc, hr⟩ := s.after_of_onlyEvents world hev.concat.1
  rw [after_concat, isActive, (hs.after world h).event_activation _ hev.concat.2, hoff, hc, hr,
    hready, Bool.false_or, Bool.true_and, Activation.terminate_of_inactive hoff, ite_self]
  rcases hac : entry.2.activates s.config with _ | _
  · rw [if_neg Bool.false_ne_true, ite_self]
    exact iff_of_false (Bool.eq_false_iff.1 hoff) Bool.false_ne_true
  · rw [Call.isLoad_of_activates hac]
    exact iff_of_true rfl rfl

/-- Where a period is open, the depth is the number of programs that are running. -/
theorem Opens.activation {world : World} {before : History} (ho : s.Opens world before opened)
    (hs : s.Sound) (hready : s.ready = true) (hev : OnlyEvents before) :
    (s.after world before).activation = ⟨true, opened⟩ := by
  cases ho with
  | standing ha =>
    have hd := Int.toNat_of_nonneg hs.grounded.nonneg
    rw [after_nil, hd, ← ha]
    rfl
  | load before entry hoff hon =>
    -- the depth was zero, and this load makes it one
    have hac := (hs.begins_iff world hready hev hoff).1 hon
    have hsb := hs.after world before
    obtain ⟨hc, hr⟩ := s.after_of_onlyEvents world hev.concat.1
    rw [after_concat, hsb.event_activation _ hev.concat.2, Call.isLoad_of_activates hac, if_pos rfl,
      hc, hr, hready, hac, Bool.and_self, Bool.or_true, if_pos rfl, hsb.grounded.of_inactive hoff]
    rfl

/-- Wherever tracing is on, a period is open and has not been closed. -/
theorem exists_opens {world : World} {p : History} (ha : (s.after world p).isActive = true) :
    ∃ before opened inside, p = before ++ inside ∧ s.Opens world before opened ∧
      ∀ q, q <+: inside → (s.after world (before ++ q)).isActive = true := by
  induction p using List.reverseRecOn with
  | nil =>
    refine ⟨[], _, [], rfl, .standing ha, fun q hq => ?_⟩
    rw [List.prefix_nil.1 hq]
    exact ha
  | append_singleton p entry ih =>
    rcases hp : (s.after world p).isActive with _ | _
    · -- the last call opened the period
      refine ⟨p ++ [entry], 1, [], (List.append_nil _).symm, .load p entry hp ha, fun q hq => ?_⟩
      rw [List.prefix_nil.1 hq, List.append_nil]
      exact ha
    · -- the period that was open before it goes on
      obtain ⟨before, opened, inside, rfl, ho, hactive⟩ := ih hp
      refine ⟨before, opened, inside ++ [entry], List.append_assoc .., ho, fun q hq => ?_⟩
      rcases List.prefix_concat_iff.1 hq with rfl | hq
      · rw [← List.append_assoc]
        exact ha
      · exact hactive q hq

/-- A period is open after `before`, and `inside` does not close it. -/
structure Within (s : Session) (world : World) (before : History) (opened : Nat)
    (inside : History) : Prop where
  opens : s.Opens world before opened
  unclosed : Unclosed opened inside

/-- Within a period the depth is the number of programs that are running. -/
theorem Within.activation {world : World} {before inside : History}
    (hw : s.Within world before opened inside) (hs : s.Sound) (hready : s.ready = true)
    (hev : OnlyEvents (before ++ inside)) :
    (s.after world (before ++ inside)).activation = ⟨true, running opened inside⟩ := by
  obtain ⟨hb, hi⟩ := onlyEvents_append.1 hev
  rw [after_append]
  exact (hs.after world before).activation_of_unclosed _ (hw.opens.activation hs hready hb) hi
    hw.unclosed

section Within

variable {world : World} {before inside : History}

theorem Opens.lasts_iff (ho : s.Opens world before opened) (hs : s.Sound) (hready : s.ready = true)
    (hev : OnlyEvents (before ++ inside)) :
    (∀ p, p <+: inside → (s.after world (before ++ p)).isActive = true) ↔
      Unclosed opened inside := by
  obtain ⟨hb, hi⟩ := onlyEvents_append.1 hev
  simp only [after_append]
  exact (hs.after world before).lasts_iff _ (ho.activation hs hready hb) hi

theorem Within.ends_iff (hw : s.Within world before opened inside) (hs : s.Sound)
    (hready : s.ready = true) (hev : OnlyEvents (before ++ inside ++ [entry])) :
    (s.after world (before ++ inside ++ [entry])).isActive = false ↔
      entry.2.isExit = true ∧ opened + loads (inside ++ [entry]) ≤ exits (inside ++ [entry]) := by
  rw [List.append_assoc] at hev ⊢
  obtain ⟨hb, hi⟩ := onlyEvents_append.1 hev
  rw [after_append, ← Bool.not_eq_true, (hs.after world before).isActive_concat _
    (hw.opens.activation hs hready hb) hi hw.unclosed, Classical.not_imp, Nat.not_lt]

/-- No fewer than minus one program is left by an exit. -/
theorem Within.remaining_ge (hw : s.Within world before opened inside)
    (hx : entry.2.isExit = true) : -1 ≤ running opened (inside ++ [entry]) := by
  have hle := hw.unclosed.exits_le
  rw [running_of_isExit opened inside hx]
  unfold running
  omega

/-- An exit that leaves minus one program comes in a period that eager options opened, before any
load in it. -/
theorem Within.remaining_eq (hw : s.Within world before opened inside) (hs : s.Sound)
    (hx : entry.2.isExit = true) (heq : running opened (inside ++ [entry]) = -1) :
    before = [] ∧ opened = 0 ∧ loads inside = 0 ∧ s.config.eager = true := by
  rw [running_of_isExit opened inside hx, running] at heq
  obtain ⟨hzero, hloads⟩ := hw.unclosed.eq_zero (by omega)
  obtain ⟨ho, -⟩ := hw
  cases ho with
  | standing ha =>
    have := hs.grounded.nonneg
    exact ⟨rfl, hzero, hloads, hs.eager_of_depth ha (by omega)⟩
  | load before entry hoff hon => exact absurd hzero Nat.one_ne_zero

end Within

end Session

end RealModeTrace
