import RealModeTrace.Proofs.Session.MasterSwitch
import RealModeTrace.Proofs.Session.Periods

/-!
# Programs that stay resident

Programs that are loaded end in last-in first-out order, and each either exits or stays resident.
The depth counts loads and exits, so a program that stays resident is counted as running from then
on.

* `WellNested`: a history in which every program that is loaded ends, in that order;
* `WellNested.exists_end`: the end that belongs to a load;
* `Session.Sound.activation_of_wellNested`: within a trace, a well-nested history leaves the depth
  greater by the number of programs that stayed resident in it;
* `Setup.top_level_end`: when the program ends whose load began the trace, the trace ends exactly if
  neither it nor a program within it stayed resident;
* `Setup.trace_outlives_program`: a trace that goes on after that.
-/

namespace RealModeTrace

namespace Session.Call

/-- A program ends and stays resident. -/
def staysResident : Call → Bool
  | .event _ (.programStayedResident _) => true
  | _ => false

/-- A program ends, whether or not it stays resident. -/
def isEnd (call : Call) : Bool :=
  call.isExit || call.staysResident

theorem isEvent_of_isLoad {call : Call} (h : call.isLoad = true) : call.isEvent = true := by
  obtain ⟨host, filename, cmdline, rfl⟩ := exists_of_isLoad h
  rfl

theorem isEvent_of_isEnd {call : Call} (h : call.isEnd = true) : call.isEvent = true := by
  cases call with
  | event host event => rfl
  | _ => exact Bool.noConfusion h

theorem isLoad_eq_false_of_isEnd {call : Call} (h : call.isEnd = true) : call.isLoad = false := by
  cases call with
  | event host event =>
    cases event with
    | programExec filename cmdline => exact Bool.noConfusion h
    | _ => rfl
  | _ => rfl

theorem staysResident_eq_false_of_isLoad {call : Call} (h : call.isLoad = true) :
    call.staysResident = false := by
  obtain ⟨host, filename, cmdline, rfl⟩ := exists_of_isLoad h
  rfl

theorem staysResident_eq_false_of_isExit {call : Call} (h : call.isExit = true) :
    call.staysResident = false := by
  obtain ⟨host, exitCode, rfl⟩ := exists_of_isExit h
  rfl

end Session.Call

/-- The number of programs that stay resident. -/
def residents (h : History) : Nat := h.countP (·.2.staysResident)

/-- Every program that is loaded ends, the last one first, and the options stay as they are. -/
inductive WellNested : History → Prop
  | nil : WellNested []
  /-- A call that neither loads nor ends a program. -/
  | aside {entry h} (hload : entry.2.isLoad = false) (hend : entry.2.isEnd = false)
      (hconfig : entry.2.newConfig? = none) (hrest : WellNested h) : WellNested (entry :: h)
  /-- A program from its load to its end. -/
  | program {load inside last rest} (hload : load.2.isLoad = true) (hinside : WellNested inside)
      (hend : last.2.isEnd = true) (hrest : WellNested rest) :
      WellNested (load :: (inside ++ last :: rest))

/-- To every load of a well-nested history there belongs an end. -/
theorem WellNested.exists_end {h before later : History} {load : Readings × Session.Call}
    (hn : WellNested h) (heq : h = before ++ load :: later) (hload : load.2.isLoad = true) :
    ∃ inside last rest, later = inside ++ last :: rest ∧ WellNested inside ∧
      last.2.isEnd = true := by
  induction hn generalizing before later with
  | nil => exact absurd heq.symm (List.append_ne_nil_of_right_ne_nil _ (List.cons_ne_nil _ _))
  | @aside entry h hl _ _ _ ih =>
    rcases List.cons_eq_append_iff.1 heq with ⟨-, hcut⟩ | ⟨before, -, hcut⟩
    · obtain ⟨rfl, -⟩ := List.cons.inj hcut
      exact Bool.noConfusion (hload.symm.trans hl)
    · exact ih hcut
  | @program load' inside last rest _ hinside hend _ ihinside ihrest =>
    have hother : load ≠ last := by
      rintro rfl
      exact Bool.noConfusion (hload.symm.trans (Session.Call.isLoad_eq_false_of_isEnd hend))
    rcases List.cons_eq_append_iff.1 heq with ⟨-, hcut⟩ | ⟨before, -, hcut⟩
    · obtain ⟨rfl, rfl⟩ := List.cons.inj hcut
      exact ⟨inside, last, rest, rfl, hinside, hend⟩
    · -- the load is within the program, or it comes after its end
      rcases List.append_eq_append_iff.1 hcut with ⟨between, -, hlater⟩ | ⟨between, hwithin, hlater⟩
      · rcases List.cons_eq_append_iff.1 hlater with ⟨-, hlast⟩ | ⟨before, -, hrest⟩
        · exact absurd (List.cons.inj hlast).1 hother
        · exact ihrest hrest
      · rcases List.cons_eq_append_iff.1 hlater with ⟨-, hlast⟩ | ⟨later', rfl, rfl⟩
        · exact absurd (List.cons.inj hlast).1.symm hother
        · obtain ⟨inside', last', rest', rfl, hinside', hend'⟩ := ihinside hwithin
          exact ⟨inside', last', rest' ++ last :: rest, List.append_assoc .., hinside', hend'⟩

/-! ### The depth -/

theorem residents_append (h k : History) : residents (h ++ k) = residents h + residents k :=
  List.countP_append ..

theorem residents_cons (entry : Readings × Session.Call) (h : History) :
    residents (entry :: h) = residents h + if entry.2.staysResident then 1 else 0 :=
  List.countP_cons ..

namespace Session

variable {s : Session}

/-- A call that neither loads nor ends a program leaves the activation alone. -/
theorem Sound.activation_aside (hs : s.Sound) (world : World) {entry : Readings × Call}
    (he : entry.2.isEvent = true) (hl : entry.2.isLoad = false) (hend : entry.2.isEnd = false) :
    (s.step world entry.1 entry.2).1.activation = s.activation := by
  rw [hs.event_activation world he, hl, (Bool.or_eq_false_iff.1 hend).1]
  rfl

/-- The activation after the end of a program, if `depth` others are running: tracing ends exactly
if there is none, and the program does not stay resident. -/
theorem Sound.activation_end (hs : s.Sound) (world : World) {last : Readings × Call} {depth : Nat}
    (ha : s.activation = ⟨true, (depth + 1 : ℕ)⟩) (hend : last.2.isEnd = true) :
    (s.step world last.1 last.2).1.activation =
      if depth + residents [last] = 0 then .off else ⟨true, (depth + residents [last] : ℕ)⟩ := by
  have hactive : s.activation.active = true := by rw [ha]
  rw [hs.event_activation world (Call.isEvent_of_isEnd hend), Call.isLoad_eq_false_of_isEnd hend,
    if_neg Bool.false_ne_true, residents, List.countP_singleton]
  rcases hx : last.2.isExit with _ | _
  · have hr : last.2.staysResident = true := by rwa [Call.isEnd, hx, Bool.false_or] at hend
    rw [if_neg Bool.false_ne_true, hr, if_pos rfl, if_neg (Nat.succ_ne_zero _)]
    exact ha
  · rw [if_pos rfl, Call.staysResident_eq_false_of_isExit hx, if_neg Bool.false_ne_true,
      Activation.terminate_of_active hactive, ha]
    dsimp only
    rcases Nat.eq_zero_or_pos depth with rfl | hpos
    · rfl
    · rw [if_neg (by omega), if_neg (by omega)]
      exact congrArg (Activation.mk true) (by omega)

/-- The activation after the calls within a program and its end, if those calls leave the depth
greater by the number of programs that stayed resident. -/
theorem Sound.activation_program (hs : s.Sound) (world : World) {inside : History}
    {last : Readings × Call} {depth : Nat}
    (hinside : (s.after world inside).activation = ⟨true, (depth + 1 + residents inside : ℕ)⟩)
    (hend : last.2.isEnd = true) :
    (s.after world (inside ++ [last])).activation =
      if depth + residents (inside ++ [last]) = 0 then .off
      else ⟨true, (depth + residents (inside ++ [last]) : ℕ)⟩ := by
  rw [Nat.add_right_comm] at hinside
  rw [after_concat, (hs.after world inside).activation_end _ hinside hend, residents_append,
    Nat.add_assoc]

/-- Within a trace, a well-nested history leaves the depth greater by the number of programs that
stayed resident in it. -/
theorem Sound.activation_of_wellNested (hs : s.Sound) (world : World) {h : History} {depth : Nat}
    (ha : s.activation = ⟨true, depth⟩) (hpos : 0 < depth) (hn : WellNested h)
    (hopen : ∀ entry ∈ h, entry.2.isShutdown = false) :
    (s.after world h).activation = ⟨true, (depth + residents h : ℕ)⟩ := by
  induction hn generalizing s world depth with
  | nil => exact ha
  | @aside entry h hl hend hc _ ih =>
    obtain ⟨hentry, hrest⟩ := List.forall_mem_cons.1 hopen
    have he : entry.2.isEvent = true := by
      obtain ⟨clock, call⟩ := entry
      cases call with
      | event host event => rfl
      | update c => cases hc
      | shutdown => cases hentry
    rw [after_cons, residents_cons, (Bool.or_eq_false_iff.1 hend).2, if_neg Bool.false_ne_true]
    exact ih (hs.step world entry.1 entry.2) _ ((hs.activation_aside world he hl hend).trans ha)
      hpos hrest
  | @program load inside last rest hl _ hend _ ihinside ihrest =>
    obtain ⟨-, hopen⟩ := List.forall_mem_cons.1 hopen
    obtain ⟨hin, hopen⟩ := List.forall_mem_append.1 hopen
    obtain ⟨-, hrest⟩ := List.forall_mem_cons.1 hopen
    -- the load goes one deeper, and the end comes back unless the program stays resident
    have hload : (s.step world load.1 load.2).1.activation = ⟨true, (depth + 1 : ℕ)⟩ := by
      rw [hs.event_activation world (Call.isEvent_of_isLoad hl), hl, if_pos rfl, isActive, ha,
        Bool.true_or, if_pos rfl]
      rfl
    have hstep := hs.step world load.1 load.2
    have hprogram := hstep.activation_program (s.step world load.1 load.2).2.1
      (ihinside hstep _ hload (Nat.succ_pos _) hin) hend
    rw [if_neg (by omega)] at hprogram
    rw [after_cons, List.append_cons, after_append,
      ihrest (hstep.after _ _) _ hprogram (by omega) hrest, residents_cons,
      residents_append (inside ++ [last]), Call.staysResident_eq_false_of_isLoad hl,
      if_neg Bool.false_ne_true, Nat.add_zero, Nat.add_assoc]

/-- A load that switches tracing on makes the depth one. -/
theorem Sound.activation_of_begins (hs : s.Sound) (world : World) {load : Readings × Call}
    (hload : load.2.isLoad = true) (hoff : s.isActive = false)
    (hon : (s.step world load.1 load.2).1.isActive = true) :
    (s.step world load.1 load.2).1.activation = ⟨true, (1 : ℕ)⟩ := by
  rw [isActive] at hon
  rw [hs.event_activation world (Call.isEvent_of_isLoad hload), hload, if_pos rfl] at hon ⊢
  split_ifs at hon ⊢
  · rw [hs.grounded.of_inactive hoff]
    rfl
  · exact Bool.noConfusion (hoff.symm.trans hon)

end Session

/-! ### The end of the program that began the trace -/

namespace Setup

/-- **The end of the program that began the trace.** In a well-nested history that comes after any
history, let a load begin a trace. When the program that was loaded ends, the trace ends with it
exactly if neither that program nor one that was loaded within it stayed resident, or the session
was ended; otherwise tracing goes on, and the depth is the number of those that did. -/
theorem top_level_end (setup : Setup) (now : Duration) (world : World)
    {prior h before later : History} {load : Readings × Session.Call} (hn : WellNested h)
    (hcut : h = before ++ load :: later) (hload : load.2.isLoad = true)
    (hoff : (setup.after now world (prior ++ before)).isActive = false)
    (hon : (setup.after now world (prior ++ before ++ [load])).isActive = true) :
    ∃ inside last rest, later = inside ++ last :: rest ∧ WellNested inside ∧
      last.2.isEnd = true ∧
      (setup.after now world (prior ++ before ++ [load] ++ (inside ++ [last]))).activation =
        if residents (inside ++ [last]) = 0 ∨ ∃ entry ∈ inside, entry.2.isShutdown = true then .off
        else ⟨true, residents (inside ++ [last])⟩ := by
  obtain ⟨inside, last, rest, rfl, hinside, hend⟩ := hn.exists_end hcut hload
  refine ⟨inside, last, rest, rfl, hinside, hend, ?_⟩
  by_cases hshut : ∃ entry ∈ inside, entry.2.isShutdown = true
  · rw [if_pos (Or.inr hshut)]
    obtain ⟨entry, hentry, hs⟩ := hshut
    refine (setup.sound_after now world _).activation_of_not_ready ?_
    have hmem : entry ∈ prior ++ before ++ [load] ++ (inside ++ [last]) :=
      List.mem_append_right _ (List.mem_append_left _ hentry)
    rw [after_ready, acceptsAfter, Bool.and_eq_false_iff, List.all_eq_false]
    exact Or.inr ⟨entry, hmem, by rw [hs]; exact Bool.false_ne_true⟩
  · have hopen : ∀ entry ∈ inside, entry.2.isShutdown = false := fun entry hentry =>
      Bool.eq_false_iff.2 fun hs => hshut ⟨entry, hentry, hs⟩
    have hs := setup.sound_after now world (prior ++ before ++ [load])
    have hbegin : (setup.after now world (prior ++ before ++ [load])).activation =
        ⟨true, (0 + 1 : ℕ)⟩ := by
      rw [after_concat] at hon ⊢
      exact (setup.sound_after now world _).activation_of_begins _ hload hoff hon
    have hprogram := hs.activation_program (setup.worldAfter now world (prior ++ before ++ [load]))
      (hs.activation_of_wellNested _ hbegin Nat.one_pos hinside hopen) hend
    rw [Nat.zero_add] at hprogram
    simp only [hshut, or_false]
    exact (congrArg Session.activation (Session.after_append ..)).trans hprogram

/-! ### A trace that outlives its program -/

/-- An enabled session that waits for a program load. -/
def waiting : Setup where
  config := { enabled := true }

/-- The load of a game. -/
def gameLoad : Readings × Session.Call := (0, .event .blank (.programExec "GAME.EXE" none))

/-- A mouse driver is loaded from within the game and ends, and then the game exits. -/
def driverAndExit (endOfDriver : Event) : History :=
  [(0, .event .blank (.programExec "MOUSE.COM" none)), (0, .event .blank endOfDriver),
    (0, .event .blank (.programTerminated 0))]

theorem wellNested_gameLoad (endOfDriver : Event)
    (hend : (Session.Call.event .blank endOfDriver).isEnd = true) :
    WellNested (gameLoad :: driverAndExit endOfDriver) :=
  have hdriver : WellNested [(0, .event .blank (.programExec "MOUSE.COM" none)),
      (0, .event .blank endOfDriver)] :=
    @WellNested.program _ [] _ [] rfl .nil hend .nil
  @WellNested.program gameLoad _ _ [] rfl hdriver rfl .nil

/-- The law at a game whose driver exits. -/
theorem top_level_end_gameLoad :
    WellNested (gameLoad :: driverAndExit (.programTerminated 0)) ∧
      gameLoad.2.isLoad = true ∧
      (waiting.after 0 {} []).isActive = false ∧
      (waiting.after 0 {} [gameLoad]).isActive = true ∧
      ∃ inside last rest, driverAndExit (.programTerminated 0) = inside ++ last :: rest ∧
        WellNested inside ∧ last.2.isEnd = true ∧
        (waiting.after 0 {} ([gameLoad] ++ (inside ++ [last]))).activation =
          if residents (inside ++ [last]) = 0 ∨ ∃ entry ∈ inside, entry.2.isShutdown = true then
            .off
          else ⟨true, residents (inside ++ [last])⟩ := by
  have hn := wellNested_gameLoad (.programTerminated 0) rfl
  have hoff : (waiting.after 0 {} []).isActive = false := by decide +kernel
  have hon : (waiting.after 0 {} [gameLoad]).isActive = true := by decide +kernel
  exact ⟨hn, rfl, hoff, hon, @top_level_end waiting 0 {} [] _ [] _ _ hn rfl rfl hoff hon⟩

/-- **A trace that outlives its program.** The driver stays resident, and when the game exits whose
load began the trace, tracing goes on at depth one. -/
theorem trace_outlives_program :
    (waiting.after 0 {} []).ready = true ∧
      (waiting.after 0 {} []).config.waitForLoad = true ∧
      WellNested (gameLoad :: driverAndExit (.programStayedResident 0)) ∧
      (waiting.after 0 {} []).isActive = false ∧
      (waiting.after 0 {} [gameLoad]).isActive = true ∧
      (waiting.after 0 {} (gameLoad :: driverAndExit (.programStayedResident 0))).activation =
        ⟨true, 1⟩ := by
  refine ⟨?_, ?_, wellNested_gameLoad _ rfl, ?_, ?_, ?_⟩ <;> decide +kernel

end Setup

end RealModeTrace
