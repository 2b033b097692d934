import RealModeTrace.Proofs.Session.MasterSwitch
import RealModeTrace.Proofs.Session.Records
import RealModeTrace.Proofs.Trace.Times

/-!
# The time in a trace

Time counts from an origin. The start under eager options and every load that switches tracing on
make a new origin; new options that switch tracing on make one only if there was none. Here the
clock is one that is moved by hand: it stands still during a call, and between two calls it may be
advanced, or set to any word, also back.

* `ManualHistory`, `byHand`: the calls of a session, each with the milliseconds on such a clock;
* `millisSince`: the time from an origin to a reading, as a natural number;
* `Setup.switchesOn`, `Setup.origins`, `Setup.origin?`: the origins in a history, and the latest;
* `Setup.epoch_after`: the epoch of a session is the latest origin;
* `Setup.time_of_mem_answer`: a time that is shown counts from the latest origin, and there is one;
* `Setup.times_since`: times between two origins do not fall if the clock does not go back;
* `Setup.KeepsTime`: what the times of a history are; `Setup.time_kept`: they are that.
-/

namespace RealModeTrace

/-! ### A clock that is moved by hand -/

/-- The calls of a session, oldest first, each with the milliseconds on the clock. -/
abbrev ManualHistory := List (UInt64 × Session.Call)

/-- A call during which the clock stands still. -/
def stillCall (entry : UInt64 × Session.Call) : Readings × Session.Call :=
  (Readings.still entry.1, entry.2)

/-- The calls with all their readings. -/
def byHand (h : ManualHistory) : History :=
  h.map stillCall

theorem byHand_append (h k : ManualHistory) : byHand (h ++ k) = byHand h ++ byHand k :=
  List.map_append

theorem byHand_concat (h : ManualHistory) (entry : UInt64 × Session.Call) :
    byHand (h ++ [entry]) = byHand h ++ [stillCall entry] :=
  byHand_append h [entry]

/-- Milliseconds from an origin to a reading: none before the origin, and none without one. -/
def millisSince : Option UInt64 → UInt64 → Nat
  | some start, reading => reading.toNat - start.toNat
  | none, _ => 0

theorem millisSince_le (origin? : Option UInt64) {earlier later : UInt64} (h : earlier ≤ later) :
    millisSince origin? earlier ≤ millisSince origin? later := by
  rcases origin? with _ | start
  · exact Nat.le_refl 0
  · exact Nat.sub_le_sub_right (UInt64.le_iff_toNat_le.1 h) _

/-- Between words of milliseconds a word can tell every time. -/
theorem Epoch.toNat_elapsed_ofMillis (origin? : Option UInt64) (reading : UInt64) :
    ((Epoch.mk (origin?.map .ofMillis)).elapsed reading).toNat = millisSince origin? reading := by
  rcases origin? with _ | start
  · rfl
  · have hlt := reading.toNat_lt
    refine (Epoch.toNat_elapsed (.ofMillis start) (.ofMillis reading)).trans ?_
    rw [Duration.millisSince_ofMillis]
    exact Nat.min_eq_left (by unfold UInt64.size; omega)

/-- The times that records show, in order. -/
def shownTimes (records : List Record) : List UInt64 :=
  records.filterMap Record.time?

/-- A call that writes something leaves an epoch set, unless it is the end of the session. -/
theorem Session.Sound.isSet_of_mem_answer {s : Session} (hs : s.Sound) (world : World)
    {entry : Readings × Call} (hopen : entry.2.isShutdown = false) {r : Record}
    (hr : r ∈ s.answer entry) : (s.step world entry.1 entry.2).1.epoch.isSet = true := by
  rw [hs.step_epoch, hopen, if_neg Bool.false_ne_true]
  rcases ha : s.isActive with _ | _
  · -- while tracing is off only a load that switches it on writes something
    obtain ⟨clock, call⟩ := entry
    have hevent : call.isEvent = true := by
      cases call with
      | event host event => rfl
      | update c => exact absurd hr List.not_mem_nil
      | shutdown => exact Bool.noConfusion hopen
    have hl : call.isLoad = true := Bool.of_not_eq_false fun hl => by
      rw [hs.answer_eq_nil_of_inactive ha hevent hl] at hr
      exact absurd hr List.not_mem_nil
    obtain ⟨host, filename, cmdline, rfl⟩ := Call.exists_of_isLoad hl
    rw [hs.answer_load, ha, if_neg Bool.false_ne_true] at hr
    obtain ⟨hload, -⟩ := List.mem_ite_nil_right.1 hr
    have hon : (s.step world clock (.event host (.programExec filename cmdline))).1.isActive =
        true := by
      rw [hs.step_isActive]
      exact (congrArg (s.isActive || ·) hload).trans (Bool.or_true _)
    rw [hon]
    rfl
  · have hset := hs.epoch_of_active ha
    split_ifs
    · rfl
    · exact hset

namespace Setup

/-- A call switches tracing on. -/
def switchesOn (setup : Setup) (now : Duration) (world : World) (h : History)
    (entry : Readings × Session.Call) : Bool :=
  !(setup.after now world h).isActive && (setup.after now world (h ++ [entry])).isActive

/-- A load that switches tracing on, and the times in its lines. -/
theorem answer_of_switchesOn (setup : Setup) (now : Duration) (world : World) {h : History}
    {clock : Readings} {host : Host} {filename : String} {cmdline : Option String}
    (hon : setup.switchesOn now world h
      (clock, .event host (.programExec filename cmdline)) = true) :
    (setup.after now world h).answer (clock, .event host (.programExec filename cmdline)) =
      [.timed (clock.sinceFirst 1) (.ofLoad host filename cmdline),
        .timed (clock.sinceFirst 2) .activated] := by
  have hs := setup.sound_after now world h
  obtain ⟨hoff, hactive⟩ := Bool.and_eq_true_iff.1 hon
  rw [Bool.not_eq_true'] at hoff
  rw [after_concat, hs.step_isActive] at hactive
  rw [hs.answer_load, hoff, if_neg Bool.false_ne_true]
  exact if_pos ((Bool.or_eq_true_iff.1 hactive).resolve_left (Bool.eq_false_iff.1 hoff))

variable (setup : Setup) (start : UInt64) (world : World)

/-! ### Origins -/

/-- The origins of time, latest first, after the calls of a history that is given latest first. -/
def originsOf : ManualHistory → List UInt64
  | [] => if setup.config.eager then [start] else []
  | entry :: earlier =>
    if setup.switchesOn start world (byHand earlier.reverse) (stillCall entry) &&
        (entry.2.isLoad || (originsOf earlier).isEmpty) then
      entry.1 :: originsOf earlier
    else originsOf earlier

/-- The origins of time, latest first: the start under eager options, the loads that switched
tracing on, and new options that did so while there was no origin. -/
def origins (h : ManualHistory) : List UInt64 :=
  setup.originsOf start world h.reverse

/-- The latest origin of time. -/
def origin? (h : ManualHistory) : Option UInt64 :=
  (setup.origins start world h).head?

theorem origins_nil :
    setup.origins start world [] = if setup.config.eager then [start] else [] := rfl

theorem origins_concat (h : ManualHistory) (entry : UInt64 × Session.Call) :
    setup.origins start world (h ++ [entry]) =
      if setup.switchesOn start world (byHand h) (stillCall entry) &&
          (entry.2.isLoad || (setup.origins start world h).isEmpty) then
        entry.1 :: setup.origins start world h
      else setup.origins start world h := by
  rw [origins, List.reverse_concat, originsOf, List.reverse_reverse]
  rfl

/-- A load switches tracing on and an exit switches it off, new options switch it on and off again,
and another load switches it on: only the loads make origins. -/
example : ({ config := { enabled := true } } : Setup).origins 0 {}
    [(5, .event .blank (.programExec "A.EXE" none)), (9, .event .blank (.programTerminated 0)),
      (12, .update { enabled := true, waitForLoad := false }), (13, .update { enabled := true }),
      (20, .event .blank (.programExec "B.EXE" none))] = [20, 5] := by
  decide +kernel

theorem origin?_concat (h : ManualHistory) (entry : UInt64 × Session.Call) :
    setup.origin? start world (h ++ [entry]) =
      if setup.switchesOn start world (byHand h) (stillCall entry) &&
          (entry.2.isLoad || (setup.origin? start world h).isNone) then some entry.1
      else setup.origin? start world h := by
  rw [origin?, origins_concat, origin?]
  rcases setup.origins start world h with _ | _ <;> exact apply_ite List.head? _ _ _

theorem origins_suffix (h k : ManualHistory) :
    setup.origins start world h <:+ setup.origins start world (h ++ k) := by
  induction k using List.reverseRecOn with
  | nil => simp
  | append_singleton k entry ih =>
    rw [← List.append_assoc, origins_concat]
    split_ifs
    · exact ih.trans (List.suffix_cons ..)
    · exact ih

/-- Between two calls with the same origins there is no other origin. -/
theorem origin?_between {before p rest : ManualHistory} {first entry : UInt64 × Session.Call}
    (hp : p ++ [entry] <+: first :: rest)
    (hsame : setup.origins start world (before ++ first :: rest) =
      setup.origins start world (before ++ [first])) :
    setup.origin? start world (before ++ (p ++ [entry])) =
      setup.origin? start world (before ++ [first]) := by
  obtain hnil | ⟨q, hq, more, rfl⟩ := List.prefix_cons_iff.1 hp
  · exact absurd hnil (List.append_ne_nil_of_right_ne_nil _ (List.cons_ne_nil _ _))
  · have hafter := setup.origins_suffix start world (before ++ [first]) q
    have hbefore := setup.origins_suffix start world (before ++ first :: q) more
    rw [List.append_assoc, List.cons_append, hsame] at hbefore
    rw [List.append_assoc, List.singleton_append] at hafter
    rw [origin?, origin?, hq]
    exact congrArg List.head? (hbefore.eq_of_length
      (Nat.le_antisymm hbefore.length_le hafter.length_le))

/-- The epoch of a session is the latest origin of time, as long as the session has not ended. -/
theorem epoch_after (h : ManualHistory) : (setup.after start world (byHand h)).epoch =
    if setup.acceptsAfter (byHand h) then ⟨(setup.origin? start world h).map .ofMillis⟩
    else .unset := by
  induction h using List.reverseRecOn with
  | nil =>
    have hnil : byHand [] = [] := rfl
    rw [hnil, after_nil, start_epoch, origin?, origins_nil, acceptsAfter, List.all_nil,
      Bool.and_true]
    rcases he : setup.config.eager with _ | _
    · exact (ite_self _).symm
    · rw [Config.enabled_of_eager he]
      rfl
  | append_singleton h entry ih =>
    have hs := setup.sound_after start world (byHand h)
    have hstep := hs.step_epoch (setup.worldAfter start world (byHand h)) (stillCall entry).1
      (stillCall entry).2
    rw [← after_concat] at hstep
    rw [byHand_concat, hstep, ih, origin?_concat, acceptsAfter_concat, switchesOn]
    rcases (stillCall entry).2.isShutdown with _ | _
    · rw [Bool.not_false, Bool.and_true, if_neg Bool.false_ne_true]
      rcases haccepts : setup.acceptsAfter (byHand h) with _ | _
      · -- a closed session is not switched on
        have hoff : (setup.after start world (byHand h ++ [stillCall entry])).isActive = false :=
          (setup.sound_after start world _).isActive_eq_false (by
            rw [after_ready, acceptsAfter_concat, haccepts]
            rfl)
        rw [hoff, Bool.and_false]
        rfl
      · have hset : (!(Epoch.mk ((setup.origin? start world h).map .ofMillis)).isSet) =
            (setup.origin? start world h).isNone := by
          cases setup.origin? start world h <;> rfl
        rw [if_pos rfl, if_pos rfl, hset]
        exact (apply_ite (fun origin : Option UInt64 => Epoch.mk (origin.map .ofMillis)) _
          (some entry.1) _).symm
    · rw [Bool.not_true, Bool.and_false]
      rfl

/-! ### Times that are shown -/

/-- A time that is shown counts from the latest origin, and there is one. -/
theorem time_of_mem_answer {h : ManualHistory} {entry : UInt64 × Session.Call} {r : Record}
    (hr : r ∈ (setup.after start world (byHand h)).answer (stillCall entry)) {time : UInt64}
    (htime : time ∈ r.time?) :
    (setup.origin? start world (h ++ [entry])).isSome = true ∧
      time.toNat = millisSince (setup.origin? start world (h ++ [entry])) entry.1 := by
  have hs := setup.sound_after start world (byHand h)
  rcases hs.record_cases (setup.worldAfter start world (byHand h)) hr with
    ⟨n, payload, rfl⟩ | ⟨-, rfl⟩ | ⟨-, rfl⟩
  · have hopen : (stillCall entry).2.isShutdown = false := by
      obtain ⟨reading, call⟩ := entry
      cases call with
      | shutdown => cases Session.eq_of_mem_closingRecords hr
      | _ => rfl
    have hset := hs.isSet_of_mem_answer (setup.worldAfter start world (byHand h)) hopen hr
    obtain rfl := Option.mem_some_iff.1 htime
    rw [Session.elapsed_eq]
    rw [← after_concat, ← byHand_concat, epoch_after] at hset ⊢
    split_ifs at hset ⊢
    · exact ⟨(Option.isSome_map ..).symm.trans hset, Epoch.toNat_elapsed_ofMillis _ _⟩
    · exact Bool.noConfusion hset
  · exact absurd htime (Option.not_mem_none time)
  · exact absurd htime (Option.not_mem_none time)

/-- No time is shown before there is an origin. -/
theorem time?_of_mem_trace {h : ManualHistory} (hnone : setup.origin? start world h = none)
    {r : Record} (hr : r ∈ setup.trace start world (byHand h)) : r.time? = none := by
  induction h using List.reverseRecOn with
  | nil =>
    replace hr : r ∈ setup.trace start world [] := hr
    rw [trace_nil] at hr
    rcases setup.eq_banner_of_mem_start start world hr with rfl | ⟨error, -, rfl⟩ <;> rfl
  | append_singleton h entry ih =>
    rw [byHand_concat, trace_concat, List.mem_append] at hr
    rcases hr with hr | hr
    · obtain ⟨more, hsuffix⟩ := setup.origins_suffix start world h [entry]
      rw [origin?, List.head?_eq_none_iff, ← hsuffix, List.append_eq_nil_iff] at hnone
      exact ih (List.head?_eq_none_iff.2 hnone.2) hr
    · refine Option.eq_none_iff_forall_not_mem.2 fun time htime => ?_
      obtain ⟨hsome, -⟩ := setup.time_of_mem_answer start world hr htime
      rw [hnone] at hsome
      exact Bool.noConfusion hsome

/-! ### Times between two origins -/

/-- While the origin stays the same and the clock does not go back, times count from that origin and
do not fall. -/
theorem times_since {before k : ManualHistory} {origin : Option UInt64}
    (hfixed : ∀ p entry, p ++ [entry] <+: k →
      setup.origin? start world (before ++ (p ++ [entry])) = origin)
    (hclock : (k.map Prod.fst).Pairwise (· ≤ ·)) :
    (shownTimes (setup.traceSince start world (byHand before) (byHand k))).Pairwise (· ≤ ·) ∧
      ∀ time ∈ shownTimes (setup.traceSince start world (byHand before) (byHand k)),
        ∃ entry ∈ k, time.toNat = millisSince origin entry.1 := by
  induction k using List.reverseRecOn with
  | nil => exact ⟨List.Pairwise.nil, List.forall_mem_nil _⟩
  | append_singleton k entry ih =>
    rw [List.map_append, List.pairwise_append] at hclock
    obtain ⟨hsorted, hmem⟩ := ih (fun p e hp => hfixed p e (hp.trans (List.prefix_append ..)))
      hclock.1
    -- all times of the last call are the same, and no reading before it is later
    have hlast : ∀ time ∈ shownTimes
        ((setup.after start world (byHand before ++ byHand k)).answer (stillCall entry)),
        time.toNat = millisSince origin entry.1 := fun time htime => by
      obtain ⟨r, hr, htime⟩ := List.mem_filterMap.1 htime
      rw [← byHand_append] at hr
      obtain ⟨-, heq⟩ := setup.time_of_mem_answer start world hr htime
      rwa [List.append_assoc, hfixed k entry (List.prefix_refl _)] at heq
    rw [byHand_concat, traceSince_concat, shownTimes, List.filterMap_append, List.pairwise_append]
    refine ⟨⟨hsorted, ?_, ?_⟩, ?_⟩
    · refine List.pairwise_of_forall_mem_list fun a ha b hb => ?_
      rw [UInt64.le_iff_toNat_le, hlast a ha, hlast b hb]
    · intro a ha b hb
      obtain ⟨earlier, hearlier, heq⟩ := hmem a ha
      have hle : earlier.1 ≤ entry.1 :=
        hclock.2.2 _ (List.mem_map_of_mem hearlier) _ List.mem_cons_self
      rw [UInt64.le_iff_toNat_le, heq, hlast b hb]
      exact millisSince_le origin hle
    · intro time htime
      rcases List.mem_append.1 htime with htime | htime
      · obtain ⟨earlier, hearlier, heq⟩ := hmem time htime
        exact ⟨earlier, List.mem_append_left _ hearlier, heq⟩
      · exact ⟨entry, List.mem_append_right _ List.mem_cons_self, hlast time htime⟩

/-! ### What times are -/

/-- What the times of a history are. -/
structure KeepsTime (h : ManualHistory) : Prop where
  /-- The time of a session counts from the latest origin until the session ends. -/
  elapsed : ∀ reading : UInt64,
    ((setup.after start world (byHand h)).elapsed reading).toNat =
      if setup.acceptsAfter (byHand h) then millisSince (setup.origin? start world h) reading else 0
  /-- So does the time in the lines of a call, which may itself make the latest origin. -/
  timed : ∀ entry, ∀ r ∈ (setup.after start world (byHand h)).answer (stillCall entry),
    ∀ time ∈ r.time?,
      time.toNat = millisSince (setup.origin? start world (h ++ [entry])) entry.1
  /-- No line shows a time before there is an origin. -/
  untimed : setup.origin? start world h = none → ∀ r ∈ setup.trace start world (byHand h),
    r.time? = none
  /-- A load that switches tracing on is written with a line for it and one for that, at zero. -/
  zero : ∀ (reading : UInt64) host filename cmdline,
    setup.switchesOn start world (byHand h)
      (stillCall (reading, .event host (.programExec filename cmdline))) = true →
    (setup.after start world (byHand h)).answer
        (stillCall (reading, .event host (.programExec filename cmdline))) =
        [.timed 0 (.ofLoad host filename cmdline), .timed 0 .activated] ∧
      ∀ r ∈ (setup.after start world (byHand h)).answer
          (stillCall (reading, .event host (.programExec filename cmdline))),
        "[T+00000000ms] ".toList <+: r.text.toList
  /-- Times do not fall from a call to the next origin after it if the clock does not go back. -/
  sorted : ∀ before first rest, h = before ++ first :: rest →
    setup.origins start world h = setup.origins start world (before ++ [first]) →
    ((first :: rest).map Prod.fst).Pairwise (· ≤ ·) →
    (shownTimes (setup.traceSince start world (byHand before)
      (byHand (first :: rest)))).Pairwise (· ≤ ·)
  /-- The time of a record can be read back from its line, up to the greatest word. -/
  printed : ∀ r : Record, readTime? r.text = r.time?.map UInt64.toNat

/-- **Time is kept.** After every history, at whatever readings its calls come, the time of a
session is that from the latest origin to the reading, or zero if the reading is before the origin,
if there is none or if the session has ended. So is the time in every line; no line shows a time
before there is an origin, and the lines of a load that switches tracing on show zero, however often
tracing was switched on before. From each call to the next origin after it, times do not fall if the
clock does not go back. The time of every line can be read back from it, up to the greatest word. -/
theorem time_kept (h : ManualHistory) : setup.KeepsTime start world h where
  elapsed reading := by
    rw [Session.elapsed_eq, epoch_after]
    split_ifs
    · exact Epoch.toNat_elapsed_ofMillis _ reading
    · rfl
  timed entry r hr time htime := (setup.time_of_mem_answer start world hr htime).2
  untimed hnone r hr := setup.time?_of_mem_trace start world hnone hr
  zero reading host filename cmdline hon := by
    have hanswer := setup.answer_of_switchesOn start world hon
    rw [Readings.sinceFirst_still, Readings.sinceFirst_still] at hanswer
    refine ⟨hanswer, fun r hr => ?_⟩
    rw [stillCall, hanswer] at hr
    rcases List.mem_pair.1 hr with rfl | rfl <;> exact Record.isPrefix_stamp 0 _
  sorted := by
    rintro before first rest rfl hsame hclock
    exact (setup.times_since start world
      (fun p entry hp => setup.origin?_between start world hp hsame) hclock).1
  printed := Record.readTime?_text

end Setup

end RealModeTrace
