import RealModeTrace.Proofs.Session.Periods

/-!
# Nested programs

What the records of a session tell of the programs that are loaded and exit, as long as the session
is told of events alone.

* `Record.switch?`, `switches`: the records that tell of tracing being switched on or off;
* `Session.Sound.alternates`: those are made in turn;
* `Session.Sound.unwinds`: once no more programs are loaded, the last to exit switches tracing off;
* `Session.Nests`: the whole law of nesting; `Setup.nesting_law`: it holds of every ready session
  and every history of events.
-/

namespace RealModeTrace

/-- What a record tells of tracing being switched on or off. -/
def Record.switch? : Record → Option Bool
  | .timed _ .activated => some true
  | .banner .deactivated => some false
  | _ => none

theorem Record.switch?_eq_none {r : Record} (h : r.isNotice = false) : r.switch? = none := by
  cases r with
  | timed elapsed payload =>
    cases payload with
    | activated => exact Bool.noConfusion h
    | _ => rfl
  | banner banner =>
    cases banner with
    | deactivated => exact Bool.noConfusion h
    | _ => rfl

/-- The switches that records tell of, in order. -/
def switches (records : List Record) : List Bool :=
  records.filterMap Record.switch?

theorem switches_append (records more : List Record) :
    switches (records ++ more) = switches records ++ switches more :=
  List.filterMap_append ..

namespace Session

variable {s : Session} {opened : Nat} {h : History} {entry : Readings × Call}

/-! ### Switches -/

/-- An event makes a record that tracing was switched exactly if it was. -/
theorem Sound.switches_answer (hs : s.Sound) (world : World) (he : entry.2.isEvent = true) :
    switches (s.answer entry) =
      if (s.step world entry.1 entry.2).1.isActive = s.isActive then [] else [!s.isActive] := by
  obtain ⟨clock, call⟩ := entry
  obtain ⟨host, event, rfl⟩ : ∃ host event, call = .event host event := Call.exists_of_isEvent he
  have hstep := hs.step_isActive world clock (.event host event)
  cases event with
  | programExec filename cmdline =>
    replace hstep : _ = (s.isActive || (s.ready && loadActivates s.config host)) := hstep
    rw [hs.answer_load, hstep]
    cases s.isActive <;> cases s.ready && loadActivates s.config host <;> rfl
  | programTerminated exitCode =>
    replace hstep : _ = (s.isActive && decide (1 < s.activation.depth)) := hstep
    rw [hs.answer_exit, hstep]
    rcases s.isActive with _ | _
    · rfl
    · by_cases hd : s.activation.depth ≤ 1
      · rw [if_pos rfl, if_pos hd, decide_eq_false (by omega)]
        rfl
      · rw [if_pos rfl, if_neg hd, decide_eq_true (by omega)]
        rfl
  | _ =>
    rw [if_pos hstep]
    refine List.filterMap_eq_nil_iff.2 fun r hr => ?_
    exact Record.switch?_eq_none (isNotice_eq_false_of_mem_answer rfl rfl hr)

/-- Tracing is switched on and off in turn. -/
theorem Sound.alternates (hs : s.Sound) (world : World) (hev : OnlyEvents h) :
    (s.isActive :: switches (s.trace world h)).IsChain (· ≠ ·) := by
  induction h generalizing s world with
  | nil => exact .singleton _
  | cons entry h ih =>
    have he := hev entry List.mem_cons_self
    replace ih := ih (hs.step world entry.1 entry.2) (s.step world entry.1 entry.2).2.1
      fun e hm => hev e (List.mem_cons_of_mem _ hm)
    rw [trace_cons, switches_append, step_records, hs.switches_answer world he]
    split_ifs with hsame
    · rw [← hsame]
      exact ih
    · -- the call made one record of the switch, and the rest starts from the other state
      rw [Bool.eq_not_of_ne hsame] at ih
      exact List.isChain_cons_cons.2 ⟨(Bool.eq_not_self _).1, ih⟩

/-- As long as tracing stays on, nothing tells that it was switched. -/
theorem Sound.switches_eq_nil (hs : s.Sound) (world : World) (hev : OnlyEvents h)
    (hactive : ∀ p, p <+: h → (s.after world p).isActive = true) :
    switches (s.trace world h) = [] := by
  induction h using List.reverseRecOn with
  | nil => rfl
  | append_singleton h entry ih =>
    have hon := hactive _ (List.prefix_refl _)
    rw [after_concat] at hon
    rw [trace_concat, switches_append,
      (hs.after world h).switches_answer (s.worldAfter world h) hev.concat.2, hon,
      hactive h (List.prefix_append _ _), if_pos rfl, List.append_nil]
    exact ih hev.concat.1 fun p hp => hactive p (hp.trans (List.prefix_append _ _))

/-- When no more programs are loaded, the last of those that are running ends the trace. -/
theorem Sound.unwinds (hs : s.Sound) (world : World) (ha : s.activation = ⟨true, opened⟩)
    (hpos : 0 < opened) (hev : OnlyEvents h) (hl : loads h = 0) :
    (s.after world h).isActive = decide (exits h < opened) ∧
      switches (s.trace world h) = if exits h < opened then [] else [false] := by
  induction h using List.reverseRecOn with
  | nil =>
    rw [exits_nil, if_pos hpos, decide_eq_true hpos]
    exact ⟨congrArg Activation.active ha, rfl⟩
  | append_singleton h entry ih =>
    obtain ⟨hl, hle⟩ : loads h = 0 ∧ entry.2.isLoad = false := by
      rw [loads_append, loads_singleton] at hl
      split_ifs at hl with hle
      exact ⟨hl, Bool.eq_false_iff.2 hle⟩
    obtain ⟨ihactive, ihswitches⟩ := ih hev.concat.1 hl
    have hle' : exits h ≤ exits (h ++ [entry]) := by
      rw [exits_append]
      exact Nat.le_add_right _ _
    have hnext : (s.after world (h ++ [entry])).isActive =
        decide (exits (h ++ [entry]) < opened) := by
      by_cases hlt : exits h < opened
      · rw [Bool.eq_iff_iff, hs.isActive_concat world ha hev (unclosed_of_exits_lt hlt),
          decide_eq_true_iff]
        rcases hx : entry.2.isExit with _ | _
        · rw [(counts_of_other h hle hx).2]
          exact iff_of_true (fun hf => Bool.noConfusion hf) hlt
        · rw [(counts_of_isExit h hx).1, hl, Nat.add_zero]
          exact ⟨fun hi => hi rfl, fun hi _ => hi⟩
      · -- the trace has ended, and without a load it stays off
        rw [decide_eq_false hlt] at ihactive
        rw [decide_eq_false (by omega), after_concat, isActive,
          (hs.after world h).event_activation _ hev.concat.2, hle, if_neg Bool.false_ne_true,
          Activation.terminate_of_inactive ihactive, ite_self]
        exact ihactive
    refine ⟨hnext, ?_⟩
    rw [trace_concat, switches_append,
      (hs.after world h).switches_answer (s.worldAfter world h) hev.concat.2, ihswitches,
      ← after_concat, hnext, ihactive]
    by_cases h1 : exits h < opened
    · by_cases h2 : exits (h ++ [entry]) < opened
      · simp only [h1, h2, if_true, List.append_nil]
      · simp only [h1, h2, if_true, if_false, decide_true, decide_false, Bool.false_eq_true,
          List.nil_append, Bool.not_true]
    · have h2 : ¬ exits (h ++ [entry]) < opened := by omega
      simp only [h1, h2, if_true, if_false, List.append_nil]

/-! ### The law -/

/-- What the loads and the exits in a history of events do, to the session and in its records. -/
structure Nests (s : Session) (world : World) (h : History) : Prop where
  /-- While tracing is off, a load switches it on if the options let it, and nothing else does. -/
  begins : ∀ before entry, before ++ [entry] <+: h → (s.after world before).isActive = false →
    ((s.after world (before ++ [entry])).isActive = true ↔ entry.2.activates s.config = true)
  /-- Wherever tracing is on, a period goes on. -/
  covers : ∀ p, p <+: h → (s.after world p).isActive = true →
    ∃ before opened inside, p = before ++ inside ∧ s.Within world before opened inside
  /-- A period lasts exactly as long as no exit closes it. -/
  lasts : ∀ before opened inside, before ++ inside <+: h → s.Opens world before opened →
    ((∀ p, p <+: inside → (s.after world (before ++ p)).isActive = true) ↔ Unclosed opened inside)
  /-- What ends a period is the exit that brings the exits up to the number of loads. -/
  ends : ∀ before opened inside entry, before ++ inside ++ [entry] <+: h →
    s.Within world before opened inside →
    ((s.after world (before ++ inside ++ [entry])).isActive = false ↔
      entry.2.isExit = true ∧ opened + loads (inside ++ [entry]) ≤ exits (inside ++ [entry]))
  /-- The depth is the number of programs that are running. -/
  depth : ∀ before opened inside, before ++ inside <+: h → s.Within world before opened inside →
    (s.after world (before ++ inside)).activation.depth = running opened inside
  /-- A load makes one EXEC record, and after that an ACTIVATED record if it begins a period. Their
  times are then those since the first reading of the load. -/
  load_records : ∀ before clock host filename cmdline,
    before ++ [(clock, .event host (.programExec filename cmdline))] <+: h →
    (s.after world before).answer (clock, .event host (.programExec filename cmdline)) =
      if (s.after world before).isActive then
        [(s.after world before).stamp (clock.nth 0) (.ofLoad host filename cmdline)]
      else if loadActivates s.config host then
        [.timed (clock.sinceFirst 1) (.ofLoad host filename cmdline),
          .timed (clock.sinceFirst 2) .activated]
      else []
  /-- An exit within a period makes one TERMINATED record with the number of programs that are left,
  and after that a DEACTIVATED banner if it ends the period. -/
  exit_records : ∀ before opened inside clock host exitCode,
    before ++ inside ++ [(clock, .event host (.programTerminated exitCode))] <+: h →
    s.Within world before opened inside →
    (s.after world (before ++ inside)).answer (clock, .event host (.programTerminated exitCode)) =
      (s.after world (before ++ inside)).stamp (clock.nth 0) (.terminated exitCode
          (running opened (inside ++ [(clock, .event host (.programTerminated exitCode))]))) ::
        if running opened (inside ++ [(clock, .event host (.programTerminated exitCode))]) ≤ 0 then
          [.banner .deactivated]
        else []
  /-- No fewer than minus one program is left, and that only if the period was open from the
  beginning under eager options with no program in it, and none was loaded. -/
  remaining : ∀ before opened inside entry, before ++ inside ++ [entry] <+: h →
    s.Within world before opened inside → entry.2.isExit = true →
    -1 ≤ running opened (inside ++ [entry]) ∧
      (running opened (inside ++ [entry]) = -1 →
        before = [] ∧ opened = 0 ∧ loads inside = 0 ∧ s.config.eager = true)
  /-- While tracing is off, only a load makes records. -/
  off_records : ∀ before entry, before ++ [entry] <+: h → (s.after world before).isActive = false →
    entry.2.isLoad = false → (s.after world before).answer entry = []
  /-- Other events make no record of a load, an exit, or tracing being switched. -/
  other_records : ∀ before entry, before ++ [entry] <+: h → entry.2.isLoad = false →
    entry.2.isExit = false → ∀ r ∈ (s.after world before).answer entry, r.isNotice = false
  /-- ACTIVATED and DEACTIVATED come in turn. -/
  alternates : (s.isActive :: switches (s.trace world h)).IsChain (· ≠ ·)
  /-- When `n` programs are running, none has exited, and no more are loaded, tracing goes on until
  the exit number `n`, which makes the only DEACTIVATED banner. -/
  unwinds : ∀ before opened up down, before ++ up ++ down <+: h → s.Opens world before opened →
    exits up = 0 → loads down = 0 → 0 < opened + loads up →
    (s.after world (before ++ up ++ down)).isActive = decide (exits down < opened + loads up) ∧
      switches ((s.after world before).trace (s.worldAfter world before) (up ++ down)) =
        if exits down < opened + loads up then [] else [false]

section Law

variable {world : World} {before inside : History}

theorem Within.answer_exit (hw : s.Within world before opened inside) (hs : s.Sound)
    (hready : s.ready = true) (hev : OnlyEvents (before ++ inside)) (clock : Readings) (host : Host)
    (exitCode : UInt8) :
    (s.after world (before ++ inside)).answer (clock, .event host (.programTerminated exitCode)) =
      (s.after world (before ++ inside)).stamp (clock.nth 0) (.terminated exitCode
          (running opened (inside ++ [(clock, .event host (.programTerminated exitCode))]))) ::
        if running opened (inside ++ [(clock, .event host (.programTerminated exitCode))]) ≤ 0 then
          [.banner .deactivated]
        else [] := by
  have hact := hw.activation hs hready hev
  rw [(hs.after world _).answer_exit, isActive, hact, if_pos rfl, running_of_isExit _ _ rfl]
  refine congrArg _ (if_congr ?_ rfl rfl)
  dsimp only
  omega

theorem Opens.unwinds {up down : History} (ho : s.Opens world before opened) (hs : s.Sound)
    (hready : s.ready = true) (hev : OnlyEvents (before ++ up ++ down)) (hup : exits up = 0)
    (hdown : loads down = 0) (hpos : 0 < opened + loads up) :
    (s.after world (before ++ up ++ down)).isActive = decide (exits down < opened + loads up) ∧
      switches ((s.after world before).trace (s.worldAfter world before) (up ++ down)) =
        if exits down < opened + loads up then [] else [false] := by
  obtain ⟨hbu, hd⟩ := onlyEvents_append.1 hev
  have hw : s.Within world before opened up := ⟨ho, unclosed_of_exits_eq_zero hup⟩
  have hact : (s.after world (before ++ up)).activation = ⟨true, (opened + loads up : ℕ)⟩ := by
    rw [hw.activation hs hready hbu, running, hup, Int.natCast_add, Int.natCast_zero, Int.sub_zero]
  -- nothing ends the period in `up`, so the records of a switch are those of `down`
  have hnone : switches ((s.after world before).trace (s.worldAfter world before) up) = [] := by
    refine (hs.after world before).switches_eq_nil _ (onlyEvents_append.1 hbu).2 fun p hp => ?_
    rw [← after_append]
    exact (ho.lasts_iff hs hready hbu).2 hw.unclosed p hp
  have hunwinds := (hs.after world (before ++ up)).unwinds (s.worldAfter world (before ++ up)) hact
    hpos hd hdown
  rw [trace_append, switches_append, hnone, List.nil_append, ← after_append, ← worldAfter_append,
    after_append s world (before ++ up) down]
  exact hunwinds

/-- **Programs nest** in every history of events of a ready session. -/
theorem Sound.nests (hs : s.Sound) (hready : s.ready = true) (world : World)
    (hev : OnlyEvents h) : s.Nests world h where
  begins before entry hp hoff := hs.begins_iff world hready (hev.of_prefix hp) hoff
  covers p hp ha := by
    obtain ⟨before, opened, inside, rfl, ho, hactive⟩ := exists_opens ha
    have hu := (ho.lasts_iff hs hready (hev.of_prefix hp)).1 hactive
    exact ⟨before, opened, inside, rfl, ho, hu⟩
  lasts before opened inside hp ho := ho.lasts_iff hs hready (hev.of_prefix hp)
  ends before opened inside entry hp hw := hw.ends_iff hs hready (hev.of_prefix hp)
  depth before opened inside hp hw :=
    congrArg Activation.depth (hw.activation hs hready (hev.of_prefix hp))
  load_records before clock host filename cmdline hp := by
    obtain ⟨hc, hr⟩ := s.after_of_onlyEvents world (hev.of_prefix hp).concat.1
    rw [(hs.after world before).answer_load, hc, hr, hready, Bool.true_and]
  exit_records before opened inside clock host exitCode hp hw :=
    hw.answer_exit hs hready (hev.of_prefix hp).concat.1 clock host exitCode
  remaining before opened inside entry hp hw hx := ⟨hw.remaining_ge hx, hw.remaining_eq hs hx⟩
  off_records before entry hp hoff hl :=
    (hs.after world before).answer_eq_nil_of_inactive hoff (hev.of_prefix hp).concat.2 hl
  other_records before entry hp hl hx r hr := isNotice_eq_false_of_mem_answer hl hx hr
  alternates := hs.alternates world hev
  unwinds before opened up down hp ho hup hdown hpos :=
    ho.unwinds hs hready (hev.of_prefix hp) hup hdown hpos

end Law

end Session

namespace Setup

/-- **The nesting law.** Programs nest in every history of events that comes after any history, as
long as the session is ready then; and a new session traces exactly under eager options, with no
program running. -/
theorem nesting_law (setup : Setup) (now : Duration) (world : World) {prior h : History}
    (hready : (setup.after now world prior).ready = true) (hev : OnlyEvents h) :
    (setup.after now world prior).Nests (setup.worldAfter now world prior) h ∧
      (prior = [] → (setup.after now world prior).isActive = setup.config.eager ∧
        (setup.after now world prior).activation.depth = 0) := by
  refine ⟨(setup.sound_after now world prior).nests hready _ hev, ?_⟩
  rintro rfl
  rw [after_nil, Session.isActive, start_activation]
  cases setup.config.eager <;> exact ⟨rfl, rfl⟩

/-- A program is loaded and exits, and another exit comes, on a machine that is all zeros. -/
def loadAndExits : History :=
  [(0, .event ⟨{}, fun _ => 0, false⟩ (.programExec "A.EXE" none)),
    (1, .event ⟨{}, fun _ => 0, false⟩ (.programTerminated 0)),
    (2, .event ⟨{}, fun _ => 0, false⟩ (.programTerminated 0))]

theorem nesting_law_loadAndExits :
    (({ config := { enabled := true } } : Setup).after 0 {} []).ready = true ∧
      OnlyEvents loadAndExits ∧
      (({ config := { enabled := true } } : Setup).after 0 {} []).Nests
        (({ config := { enabled := true } } : Setup).worldAfter 0 {} []) loadAndExits := by
  have hready : (({ config := { enabled := true } } : Setup).after 0 {} []).ready = true := by
    decide +kernel
  have hev : OnlyEvents loadAndExits := by decide
  exact ⟨hready, hev, (nesting_law _ 0 {} hready hev).1⟩

end Setup

end RealModeTrace
