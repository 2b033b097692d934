import RealModeTrace.Proofs.Session.Closed
import RealModeTrace.Proofs.Session.LogFile

/-!
# Counts of lines

Every line that a session hands to its sink is counted once, as taken or as refused. The end of a
session, however often it is asked for, writes one more line at most, and nothing comes after that.

* `Session.handed?`: the lines handed to the sink so far, while there is one;
* `Setup.handed?_after`: they are the lines of the history;
* `Record.text_eq_closingLine_iff`: the closing banner is known by its line;
* `Setup.trace_of_shutdown`, `Setup.exists_body`: the records of a history with an end in it stop at
  the first end, with the closing banner or without;
* `Setup.CountsLines`: what the counts say; `Setup.lines_counted`: they do after every history.
-/

namespace RealModeTrace

/-! ### Lines handed to the sink -/

namespace Writer

/-- The lines handed to the sink: those it took and those it refused. -/
def handed (w : Writer) : Nat :=
  w.linesWritten + w.writeErrors

theorem handed_emit (w : Writer) (world : World) (r : Record) :
    (w.emit world r).1.handed = w.handed + 1 := by
  unfold emit writePieces
  dsimp only
  split
  · exact Nat.add_right_comm ..
  · rfl

theorem handed_emitAll (w : Writer) (world : World) (records : List Record) :
    (w.emitAll world records).1.handed = w.handed + records.length := by
  induction records generalizing w world with
  | nil => rfl
  | cons r records ih =>
    rw [emitAll_cons, ih, handed_emit, List.length_cons]
    omega

end Writer

namespace Session

/-- The lines handed to the sink, if there is a sink. -/
def handed? (s : Session) : Option Nat :=
  s.writer.map Writer.handed

theorem handed?_emit (s : Session) (world : World) (records : List Record) :
    (s.emit world records).1.handed? = s.handed?.map (· + records.length) := by
  rw [handed?, handed?, emit_fst, Option.map_map, Option.map_map]
  exact congrArg (Option.map · s.writer) (funext fun w => w.handed_emitAll world records)

/-- Every record of a call is a line handed to the sink. -/
theorem handed?_step (s : Session) (world : World) (clock : Readings) (call : Call) :
    (s.step world clock call).1.handed? =
      if call.isShutdown then none else s.handed?.map (· + (s.answer (clock, call)).length) := by
  cases call with
  | event host event =>
    have hobserve : (s.observe clock host event).1.handed? = s.handed? :=
      map_writer_observe s clock host (fun _ => rfl) event
    rw [step_event_fst, handed?_emit, hobserve]
    rfl
  | update c =>
    have hupdate : (s.update (clock.nth 0) c).handed? = s.handed? :=
      map_writer_update s (clock.nth 0) c fun _ => rfl
    rw [step_update_fst, hupdate]
    exact Option.map_id'.symm
  | shutdown =>
    rw [step_shutdown_fst]
    rfl

/-- Only the end of a session writes the closing banner. -/
theorem Sound.ended_notMem_answer {s : Session} (hs : s.Sound) {entry : Readings × Call}
    (hopen : entry.2.isShutdown = false) : .banner .ended ∉ s.answer entry := fun hmem => by
  rcases hs.record_cases {} hmem with ⟨n, payload, hr⟩ | ⟨-, hr⟩ | ⟨hend, -⟩
  · cases hr
  · cases hr
  · exact Bool.noConfusion (hopen.symm.trans hend)

/-- To close a session is to end it. -/
theorem close_snd (s : Session) (world : World) (clock : Readings) :
    (s.close world).2 = (s.step world clock .shutdown).2.1 := rfl

/-- The result of closing a session: the number of its lines, or why the last ones could not be
stored. -/
theorem close_fst (s : Session) (world : World) (clock : Readings) :
    (s.close world).1 =
      match (s.emit world s.closingRecords).1.writer.bind (·.sink.close) with
      | some cause => .error (.io cause)
      | none => .ok (s.step world clock .shutdown).1.linesWritten := by
  obtain ⟨config, ready, activation, writer, sampler, files, fallback, finalLines⟩ := s
  cases writer <;> rfl

end Session

/-! ### The closing banner -/

/-- The line of the closing banner. -/
def closingLine : String :=
  (Record.banner .ended).text

namespace Record

theorem closingLine_eq : closingLine = "[debugtrace] === TRACE LOGGING ENDED ===" := by
  decide +kernel

/-- No other record has the line of the closing banner. -/
theorem text_eq_closingLine_iff (r : Record) : r.text = closingLine ↔ r = .banner .ended := by
  refine ⟨fun h => ?_, fun h => congrArg text h⟩
  rw [closingLine_eq] at h
  cases r with
  | timed elapsed payload =>
    have hprefix := (List.prefix_append ..).trans
      ((List.prefix_append ..).trans (isPrefix_stamp elapsed payload))
    rw [h] at hprefix
    exact absurd hprefix (by decide)
  | banner b =>
    cases b with
    | fallback error =>
      have hfull : (Record.banner (.fallback error)).full =
          "[debugtrace] WARNING: " ++ (error.message ++ ", falling back to stdout") := by
        rw [full_eq, ← String.append_assoc]
        rfl
      have hprefix := isPrefix_text hfull (by decide)
      rw [h] at hprefix
      exact absurd hprefix (by decide)
    | started => exact absurd h (by decide +kernel)
    | deactivated => exact absurd h (by decide +kernel)
    | ended => rfl

end Record

namespace Setup

variable (setup : Setup) (now : Duration) (world : World)

/-! ### Histories -/

theorem handed?_start : (setup.start now world).1.handed? =
    if setup.config.enabled then some (setup.start now world).2.2.length else none := by
  rcases h : setup.config.enabled with _ | _
  · rw [start_of_disabled _ _ _ h]
    rfl
  · rw [start_eq_of_enabled _ _ _ h, Session.handed?_emit]
    simp only [opened, Session.handed?, Option.map_some, if_true]
    split_ifs <;> exact congrArg some (Nat.zero_add _)

/-- The lines handed to the sink are the lines of the history. -/
theorem handed?_after (h : History) : (setup.after now world h).handed? =
    if setup.acceptsAfter h then some (setup.trace now world h).length else none := by
  induction h using List.reverseRecOn with
  | nil =>
    rw [after_nil, handed?_start, trace_nil, acceptsAfter, List.all_nil, Bool.and_true]
  | append_singleton h entry ih =>
    rw [after_concat, Session.handed?_step, ih, acceptsAfter_concat, trace_concat,
      List.length_append]
    cases entry.2.isShutdown <;> cases setup.acceptsAfter h <;> rfl

theorem onConsole?_after (h : History) : (setup.after now world h).onConsole? =
    if setup.acceptsAfter h then some (setup.openSink world).1.isConsole else none := by
  refine setup.after_induction now world (motive := fun h s => s.onConsole? =
    if setup.acceptsAfter h then some (setup.openSink world).1.isConsole else none) ?_ ?_ h
  · rw [onConsole?_start, acceptsAfter, List.all_nil, Bool.and_true]
  · intro h s world' entry ih
    rw [Session.onConsole?_step, ih, acceptsAfter_concat]
    cases entry.2.isShutdown <;> cases setup.acceptsAfter h <;> rfl

/-- A session that has not been ended has not written the closing banner. -/
theorem ended_notMem_trace {h : History} (hopen : ∀ entry ∈ h, entry.2.isShutdown = false) :
    .banner .ended ∉ setup.trace now world h := fun hmem => by
  rcases setup.mem_trace_cases now world hmem with hr | ⟨before, entry, hp, hr⟩
  · rcases setup.eq_banner_of_mem_start now world hr with hr | ⟨error, -, hr⟩ <;> cases hr
  · have hentry : entry ∈ h := hp.subset (List.mem_append_right _ List.mem_cons_self)
    exact (setup.sound_after now world before).ended_notMem_answer (hopen entry hentry) hr

/-- A session that was started enabled and has not been ended accepts events. -/
theorem acceptsAfter_of_open {h : History} (hopen : ∀ entry ∈ h, entry.2.isShutdown = false) :
    setup.acceptsAfter h = setup.config.enabled := by
  have hall : (h.all fun entry => !entry.2.isShutdown) = true :=
    List.all_eq_true.2 fun entry he => by rw [hopen entry he]; rfl
  rw [acceptsAfter, hall, Bool.and_true]

/-- A session that is enabled and does not write to the console ends with a banner. -/
def endsWithBanner : Bool :=
  setup.config.enabled && !(setup.openSink world).1.isConsole

/-- The records of a history with an end in it: those before the first end, and the closing banner
if there is to be one. -/
theorem trace_of_shutdown {before : History} (rest : History) (clock : Readings)
    (hopen : ∀ entry ∈ before, entry.2.isShutdown = false) :
    setup.trace now world (before ++ (clock, .shutdown) :: rest) =
      setup.trace now world before ++
        if setup.endsWithBanner world then [.banner .ended] else [] := by
  have haccepts := setup.acceptsAfter_of_open hopen
  have hclosed : (setup.after now world (before ++ [(clock, .shutdown)])).ready = false := by
    rw [after_ready, acceptsAfter_concat]
    exact Bool.and_false _
  have hanswer : (setup.after now world before).answer (clock, .shutdown) =
      if setup.endsWithBanner world then [.banner .ended] else [] := by
    show (setup.after now world before).closingRecords = _
    rw [Session.closingRecords_eq, onConsole?_after, haccepts, endsWithBanner]
    cases setup.config.enabled <;> cases (setup.openSink world).1.isConsole <;> rfl
  -- what comes after the first end makes no records
  obtain ⟨-, -, hrest⟩ := (setup.sound_after now world _).after_of_closed hclosed
    (setup.worldAfter now world (before ++ [(clock, .shutdown)])) rest
  rw [List.append_cons, trace_append, hrest, List.append_nil, trace_concat, hanswer]

/-- The first end in a history. -/
theorem exists_first_shutdown {h : History} (hend : ∃ entry ∈ h, entry.2.isShutdown = true) :
    ∃ before clock rest, h = before ++ (clock, .shutdown) :: rest ∧
      ∀ entry ∈ before, entry.2.isShutdown = false := by
  obtain ⟨⟨clock, call⟩, hfind⟩ :=
    Option.isSome_iff_exists.1 (List.find?_isSome.2 hend)
  obtain ⟨hcall, before, rest, rfl, hbefore⟩ := List.find?_eq_some_iff_append.1 hfind
  cases call with
  | shutdown => exact ⟨before, clock, rest, rfl, fun entry he => by simpa using hbefore entry he⟩
  | _ => exact Bool.noConfusion hcall

/-- The lines of a history: others, and then the closing line if the session has ended and was to
have one. -/
theorem exists_body (h : History) : ∃ body, closingLine ∉ body ∧ setup.lines now world h =
    body ++ if setup.endsWithBanner world && h.any (·.2.isShutdown) then [closingLine] else [] := by
  -- a closing line would come from a closing banner, which only an end writes
  have hbody : ∀ before : History, (∀ entry ∈ before, entry.2.isShutdown = false) →
      closingLine ∉ setup.lines now world before := fun before hopen hmem => by
    obtain ⟨r, hr, htext⟩ := List.mem_map.1 hmem
    rw [r.text_eq_closingLine_iff.1 htext] at hr
    exact setup.ended_notMem_trace now world hopen hr
  rcases hany : h.any (·.2.isShutdown) with _ | _
  · refine ⟨setup.lines now world h, hbody h (by simpa using hany), ?_⟩
    rw [Bool.and_false]
    exact (List.append_nil _).symm
  · obtain ⟨before, clock, rest, rfl, hopen⟩ := exists_first_shutdown (List.any_eq_true.1 hany)
    refine ⟨setup.lines now world before, hbody before hopen, ?_⟩
    rw [lines, setup.trace_of_shutdown now world rest clock hopen, List.map_append,
      Bool.and_true]
    split_ifs <;> rfl

theorem linesWritten_after (h : History) : (setup.after now world h).linesWritten =
    ((setup.outlet world).pushAll (setup.lines now world h)).taken :=
  (setup.delivered_after now world h).lines_eq

/-- While there is a sink, every line so far was taken or refused. -/
theorem taken_add_refused {h : History} (hsink : (setup.after now world h).writer.isSome = true) :
    (setup.after now world h).linesWritten + (setup.after now world h).writeErrors =
      (setup.lines now world h).length := by
  have hhanded := setup.handed?_after now world h
  obtain ⟨w, hw⟩ := Option.isSome_iff_exists.1 hsink
  rw [Session.handed?, hw, Option.map_some] at hhanded
  rw [Session.linesWritten, Session.writeErrors, hw, lines, List.length_map]
  split_ifs at hhanded
  exact Option.some.inj hhanded

/-- No line is refused by a sink that never fails. -/
theorem writeErrors_of_neverFails (hsink : (setup.outlet world).NeverFails) (h : History) :
    (setup.after now world h).writeErrors = 0 := by
  rcases hw : (setup.after now world h).writer with _ | w
  · rw [Session.writeErrors, hw]
  · have hsome : (setup.after now world h).writer.isSome = true := by rw [hw]; rfl
    have hall := setup.taken_add_refused now world hsome
    rw [linesWritten_after, hsink.taken_eq, outlet_taken] at hall
    omega

/-- The result of closing a session over a sink that never fails. -/
theorem close_of_neverFails (hsink : (setup.outlet world).NeverFails) (h : History)
    (clock : Readings) :
    ((setup.after now world h).close (setup.worldAfter now world h)).1 =
      .ok (setup.after now world (h ++ [(clock, .shutdown)])).linesWritten := by
  have hnone : (setup.after now world h).writer = none →
      (setup.after now world h).closingRecords = [] := fun hw => by
    rw [Session.closingRecords, hw]
  obtain ⟨-, -, hopen⟩ := (setup.delivered_after now world h).emit hnone
  rw [← Delivery.pushAll_append] at hopen
  have hclose : (((setup.after now world h).emit (setup.worldAfter now world h)
      (setup.after now world h).closingRecords).1.writer.bind (·.sink.close)) = none :=
    Option.bind_eq_none_iff.2 fun w hw => by rw [hopen w hw, hsink.close_eq]
  rw [Session.close_fst _ _ clock, hclose, after_concat]

/-! ### Counts -/

/-- What the counts of lines say after a history. -/
structure CountsLines (h : History) : Prop where
  /-- While there is a sink, every line so far was taken or refused. -/
  handed : (setup.after now world h).writer.isSome = true →
    (setup.after now world h).linesWritten + (setup.after now world h).writeErrors =
      (setup.lines now world h).length
  /-- The lines written are those that the sink took. -/
  written : (setup.after now world h).linesWritten =
    ((setup.outlet world).pushAll (setup.lines now world h)).taken
  grows : ∀ k, (setup.after now world h).linesWritten ≤
    (setup.after now world (h ++ k)).linesWritten
  /-- After the end of the session nothing is written, and the count stays as it is. -/
  final : (∃ entry ∈ h, entry.2.isShutdown = true) → ∀ k,
    setup.worldAfter now world (h ++ k) = setup.worldAfter now world h ∧
      setup.lines now world (h ++ k) = setup.lines now world h ∧
      (setup.after now world (h ++ k)).linesWritten = (setup.after now world h).linesWritten
  /-- The closing banner is written once, if the session has ended and was to have one. -/
  closing_count : (setup.lines now world h).count closingLine =
    if setup.endsWithBanner world && h.any (·.2.isShutdown) then 1 else 0
  /-- No line comes after the closing banner. -/
  closing_last : closingLine ∈ setup.lines now world h → ∃ body,
    setup.lines now world h = body ++ [closingLine] ∧ closingLine ∉ body
  /-- Closing the session writes what its end writes. -/
  close_world : ∀ clock, ((setup.after now world h).close (setup.worldAfter now world h)).2 =
    setup.worldAfter now world (h ++ [(clock, .shutdown)])
  /-- A number that closing gives is that of all lines which the sink took. -/
  close_ok : ∀ clock count,
    ((setup.after now world h).close (setup.worldAfter now world h)).1 = .ok count →
    count = ((setup.outlet world).pushAll
      (setup.lines now world (h ++ [(clock, .shutdown)]))).taken
  /-- If the sink never fails, closing gives the number of all lines. -/
  close_total : (setup.outlet world).NeverFails → ∀ clock,
    ((setup.after now world h).close (setup.worldAfter now world h)).1 =
      .ok (setup.lines now world (h ++ [(clock, .shutdown)])).length

/-- **Every line is counted once.** After every history, with its end in it or not, asked for once
or more often: while there is a sink, the lines written and the lines refused are all lines so far,
and the lines written are those that the sink took. Their count never falls, and after the end
nothing is written any more. The closing banner is written once if the session was started enabled,
does not write to the console and has ended, and not otherwise; it is the last line. Closing the
session writes what its end writes, and gives the number of all lines that the sink took, which are
all lines if the sink never fails. -/
theorem lines_counted (h : History) : setup.CountsLines now world h where
  handed := setup.taken_add_refused now world
  written := setup.linesWritten_after now world h
  grows k := by
    rw [linesWritten_after, linesWritten_after, lines, lines, trace_append, List.map_append,
      Delivery.pushAll_append]
    exact Delivery.taken_le_pushAll _ _
  final hend k := by
    have hready : (setup.after now world h).ready = false := by
      rw [after_ready]
      exact setup.acceptsAfter_eq_false_iff.2 (Or.inr hend)
    obtain ⟨-, hworld, hrest⟩ := (setup.sound_after now world h).after_of_closed hready
      (setup.worldAfter now world h) k
    have hlines : setup.lines now world (h ++ k) = setup.lines now world h := by
      rw [lines, trace_append, hrest, List.append_nil, lines]
    refine ⟨?_, hlines, ?_⟩
    · rw [worldAfter_append, hworld]
    · rw [linesWritten_after, linesWritten_after, hlines]
  closing_count := by
    obtain ⟨body, hbody, hlines⟩ := setup.exists_body now world h
    rw [hlines, List.count_append, List.count_eq_zero_of_not_mem hbody]
    split_ifs <;> simp
  closing_last hmem := by
    obtain ⟨body, hbody, hlines⟩ := setup.exists_body now world h
    rw [hlines] at hmem ⊢
    split_ifs at hmem ⊢
    · exact ⟨body, rfl, hbody⟩
    · exact absurd (List.append_nil body ▸ hmem) hbody
  close_world clock := by rw [Session.close_snd _ _ clock, worldAfter_concat]
  close_ok clock count hclose := by
    rw [Session.close_fst _ _ clock] at hclose
    split at hclose
    · cases hclose
    · rw [← Except.ok.inj hclose, ← linesWritten_after, after_concat]
  close_total hsink clock := by
    rw [setup.close_of_neverFails now world hsink h clock, linesWritten_after, hsink.taken_eq,
      outlet_taken, Nat.zero_add]

end Setup

end RealModeTrace
