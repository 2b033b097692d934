import RealModeTrace.Proofs.Session.MasterSwitch
import RealModeTrace.Proofs.Session.Reads

/-!
# Paired reads

In the trace, every result of a read answers the request whose line is the last line of a read
before it, and every line of file data follows the result of its read at once.

* `ReadLine`, `lastReadLine?`: the lines of requests and results, and the last of them;
* `ReadsPaired`: the two rules, on any sequence of records; `ReadsPaired.results_add_le`: with them
  no handle has more results than requests;
* `Setup.lastReadLine?_of_waits`: while a read waits, the last line of a read is its request;
* `Setup.reads_paired`: the trace of every history obeys the rules, and which completions are not
  answered.
-/

namespace RealModeTrace

/-! ### Lines of reads -/

/-- What a line says of a read. -/
inductive ReadLine
  | request (handle : UInt16)
  | result (handle : UInt16)
  deriving DecidableEq, Repr

namespace Record

/-- What the record says of a read, if it is a request or a result. -/
def readLine? : Record → Option ReadLine
  | .timed _ (.fileRead _ request) => some (.request request.handle)
  | .timed _ (.fileReadResult _ handle _) => some (.result handle)
  | _ => none

/-- The record is a line of file data. -/
def isData : Record → Bool
  | .timed _ (.fileData _) => true
  | _ => false

theorem readLine?_eq_none {r : Record} (h : r.isReadRecord = false) : r.readLine? = none := by
  cases r with
  | timed elapsed payload =>
    cases payload with
    | fileRead _ _ | fileReadResult _ _ _ => cases h
    | _ => rfl
  | banner banner => rfl

theorem isData_eq_false {r : Record} (h : r.isReadRecord = false) : r.isData = false := by
  cases r with
  | timed elapsed payload =>
    cases payload with
    | fileData _ => cases h
    | _ => rfl
  | banner banner => rfl

end Record

/-- The last line of a read. -/
def lastReadLine? (trace : List Record) : Option ReadLine :=
  (trace.filterMap Record.readLine?).getLast?

theorem lastReadLine?_concat (trace : List Record) (r : Record) :
    lastReadLine? (trace ++ [r]) = r.readLine?.or (lastReadLine? trace) := by
  unfold lastReadLine?
  rw [List.filterMap_append, List.filterMap_cons, List.filterMap_nil]
  rcases r.readLine? with _ | line
  · rw [List.append_nil]
    rfl
  · rw [List.getLast?_concat]
    rfl

/-- Other records leave the last line of a read what it was. -/
theorem lastReadLine?_append (trace : List Record) {records : List Record}
    (h : ∀ r ∈ records, r.readLine? = none) :
    lastReadLine? (trace ++ records) = lastReadLine? trace := by
  unfold lastReadLine?
  rw [List.filterMap_append, List.filterMap_eq_nil_iff.2 h, List.append_nil]

/-- The last line of a read has no line of a read after it. -/
theorem exists_of_lastReadLine? {trace : List Record} {line : ReadLine}
    (h : lastReadLine? trace = some line) :
    ∃ early q mid, trace = early ++ q :: mid ∧ q.readLine? = some line ∧
      ∀ m ∈ mid, m.readLine? = none := by
  induction trace using List.reverseRecOn with
  | nil => cases h
  | append_singleton trace r ih =>
    rw [lastReadLine?_concat] at h
    rcases hr : r.readLine? with _ | other
    · rw [hr, Option.none_or] at h
      obtain ⟨early, q, mid, rfl, hq, hmid⟩ := ih h
      refine ⟨early, q, mid ++ [r], List.append_assoc .., hq, ?_⟩
      exact List.forall_mem_append.2 ⟨hmid, List.forall_mem_singleton.2 hr⟩
    · rw [hr] at h
      cases h
      exact ⟨trace, r, [], rfl, hr, fun _ hm => absurd hm List.not_mem_nil⟩

theorem lastReadLine?_of_follows {early mid : List Record} {q : Record} {line : ReadLine}
    (hq : q.readLine? = some line) (hmid : ∀ m ∈ mid, m.readLine? = none) :
    lastReadLine? (early ++ q :: mid) = some line := by
  rw [List.append_cons, lastReadLine?_append _ hmid, lastReadLine?_concat, hq]
  rfl

/-! ### Paired traces -/

/-- The reads of a trace are paired. -/
structure ReadsPaired (trace : List Record) : Prop where
  /-- A result is of the handle of the request that is the last line of a read before it. -/
  result_follows : ∀ front r back handle, trace = front ++ r :: back →
    r.readLine? = some (.result handle) →
    ∃ early q mid, front = early ++ q :: mid ∧ q.readLine? = some (.request handle) ∧
      ∀ m ∈ mid, m.readLine? = none
  /-- File data stand next to a result. -/
  data_follows : ∀ front r back, trace = front ++ r :: back → r.isData = true →
    ∃ early q handle, front = early ++ [q] ∧ q.readLine? = some (.result handle)

/-- The number of results of reads from a handle. -/
def results (handle : UInt16) (trace : List Record) : Nat :=
  trace.countP (·.readLine? = some (.result handle))

/-- The number of requests to read from a handle. -/
def requests (handle : UInt16) (trace : List Record) : Nat :=
  trace.countP (·.readLine? = some (.request handle))

theorem results_concat (handle : UInt16) (trace : List Record) (r : Record) :
    results handle (trace ++ [r]) =
      results handle trace + if r.readLine? = some (.result handle) then 1 else 0 := by
  unfold results
  rw [List.countP_append, List.countP_singleton]
  simp only [decide_eq_true_eq]

theorem requests_concat (handle : UInt16) (trace : List Record) (r : Record) :
    requests handle (trace ++ [r]) =
      requests handle trace + if r.readLine? = some (.request handle) then 1 else 0 := by
  unfold requests
  rw [List.countP_append, List.countP_singleton]
  simp only [decide_eq_true_eq]

namespace ReadsPaired

variable {trace records : List Record} {r : Record}

theorem nil : ReadsPaired [] where
  result_follows front r back _ h := absurd h.symm (List.append_ne_nil_of_right_ne_nil _ (by simp))
  data_follows front r back h := absurd h.symm (List.append_ne_nil_of_right_ne_nil _ (by simp))

theorem of_append (h : ReadsPaired (trace ++ records)) : ReadsPaired trace where
  result_follows front r back handle heq :=
    h.result_follows front r (back ++ records) handle (by rw [heq, List.append_assoc]; rfl)
  data_follows front r back heq :=
    h.data_follows front r (back ++ records) (by rw [heq, List.append_assoc]; rfl)

/-- One more record keeps a trace paired if it stands in its place. -/
theorem concat (h : ReadsPaired trace)
    (hresult : ∀ handle, r.readLine? = some (.result handle) →
      lastReadLine? trace = some (.request handle))
    (hdata : r.isData = true →
      ∃ early q handle, trace = early ++ [q] ∧ q.readLine? = some (.result handle)) :
    ReadsPaired (trace ++ [r]) where
  result_follows front q back handle heq hq := by
    rcases List.eq_nil_or_concat' back with rfl | ⟨back, last, rfl⟩
    · obtain ⟨rfl, rfl⟩ := List.append_singleton_inj.1 heq
      exact exists_of_lastReadLine? (hresult handle hq)
    · rw [← List.cons_append, ← List.append_assoc] at heq
      exact h.result_follows front q back handle (List.append_singleton_inj.1 heq).1 hq
  data_follows front q back heq hq := by
    rcases List.eq_nil_or_concat' back with rfl | ⟨back, last, rfl⟩
    · obtain ⟨rfl, rfl⟩ := List.append_singleton_inj.1 heq
      exact hdata hq
    · rw [← List.cons_append, ← List.append_assoc] at heq
      exact h.data_follows front q back (List.append_singleton_inj.1 heq).1 hq

/-- Records that are not of reads keep a trace paired. -/
theorem append (h : ReadsPaired trace) (hr : ∀ r ∈ records, r.isReadRecord = false) :
    ReadsPaired (trace ++ records) := by
  induction records using List.reverseRecOn with
  | nil => rwa [List.append_nil]
  | append_singleton records r ih =>
    obtain ⟨hrecords, hlast⟩ := List.forall_mem_append.1 hr
    have hnone := List.forall_mem_singleton.1 hlast
    rw [← List.append_assoc]
    refine (ih hrecords).concat (fun handle hres => ?_) fun hdata => ?_
    · rw [Record.readLine?_eq_none hnone] at hres
      cases hres
    · rw [Record.isData_eq_false hnone] at hdata
      cases hdata

/-- No handle has more results than requests; while the last line of a read is a request of the
handle, it has fewer. -/
theorem results_add_le (h : ReadsPaired trace) (handle : UInt16) :
    results handle trace + (if lastReadLine? trace = some (.request handle) then 1 else 0) ≤
      requests handle trace := by
  induction trace using List.reverseRecOn with
  | nil => exact Nat.le_refl 0
  | append_singleton trace r ih =>
    have hcount := ih h.of_append
    rw [results_concat, requests_concat, lastReadLine?_concat]
    rcases hr : r.readLine? with _ | ⟨other⟩ | ⟨other⟩
    · rw [Option.none_or]
      exact hcount
    · -- a request counts at once
      by_cases heq : other = handle
      · subst heq
        simp only [Option.some_or, reduceCtorEq, if_false, if_true, Option.some.injEq]
        split_ifs at hcount <;> omega
      · simp only [Option.some_or, reduceCtorEq, if_false, Option.some.injEq,
          ReadLine.request.injEq, heq]
        omega
    · -- a result uses up the request that the last line was
      obtain ⟨early, q, mid, rfl, hq, hmid⟩ := h.result_follows trace r [] other rfl hr
      rw [lastReadLine?_of_follows hq hmid] at hcount
      simp only [Option.some.injEq, ReadLine.request.injEq] at hcount
      simp only [Option.some_or, Option.some.injEq, ReadLine.result.injEq, reduceCtorEq, if_false]
      exact hcount

end ReadsPaired

namespace Setup

variable (setup : Setup) (now : Duration) (world : World)

/-- While a read waits, the last line of a read is its request. -/
theorem lastReadLine?_of_waits {h : History} {request : ReadRequest}
    (hw : (setup.after now world h).files.pending.slot = some request) :
    lastReadLine? (setup.trace now world h) = some (.request request.handle) := by
  induction h using List.reverseRecOn with
  | nil =>
    rw [after_nil, start_files] at hw
    cases hw
  | append_singleton h entry ih =>
    have hs := setup.sound_after now world h
    rw [after_concat, Session.step_slot] at hw
    rw [trace_concat]
    split_ifs at hw
    rcases ht : (setup.after now world h).tracedHalf? entry.2 with _ | ⟨other⟩ | ⟨handle⟩
    · -- the read has waited before this call, which wrote no line of a read
      rw [ht] at hw
      rw [lastReadLine?_append _ fun r hr =>
        Record.readLine?_eq_none (hs.isReadRecord_eq_false ht hr)]
      exact ih hw
    · rw [ht] at hw
      cases hw
      obtain ⟨htraces, hissued⟩ := Session.tracedHalf?_eq_some.1 ht
      obtain ⟨t, call⟩ := entry
      obtain ⟨host, rfl⟩ := Session.Call.exists_of_issued hissued
      rw [Session.answer_readIssued, if_pos htraces, lastReadLine?_concat]
      rfl
    · rw [ht] at hw
      cases hw

theorem lastReadLine?_of_awaits {h : History} {handle : UInt16}
    (ha : (setup.after now world h).awaits handle = true) :
    lastReadLine? (setup.trace now world h) = some (.request handle) := by
  obtain ⟨request, hslot, heq⟩ := (Option.any_eq_true _ _).1 ha
  rw [setup.lastReadLine?_of_waits now world hslot, beq_iff_eq.1 heq]

/-- The reads of every trace are paired. -/
theorem readsPaired_trace (h : History) : ReadsPaired (setup.trace now world h) := by
  induction h using List.reverseRecOn with
  | nil =>
    rw [trace_nil]
    refine ReadsPaired.nil.append fun r hr => ?_
    rcases setup.eq_banner_of_mem_start now world hr with rfl | ⟨error, -, rfl⟩ <;> rfl
  | append_singleton h entry ih =>
    have hs := setup.sound_after now world h
    rw [trace_concat]
    rcases ht : (setup.after now world h).tracedHalf? entry.2 with _ | ⟨request⟩ | ⟨handle⟩
    · exact ih.append fun r hr => hs.isReadRecord_eq_false ht hr
    · obtain ⟨htraces, hissued⟩ := Session.tracedHalf?_eq_some.1 ht
      obtain ⟨t, call⟩ := entry
      obtain ⟨host, rfl⟩ := Session.Call.exists_of_issued hissued
      rw [Session.answer_readIssued, if_pos htraces]
      exact ih.concat (fun _ hres => by cases hres) fun hdata => by cases hdata
    · obtain ⟨-, hcompleted⟩ := Session.tracedHalf?_eq_some.1 ht
      rcases (setup.after now world h).answer_completed_cases hcompleted with
        hnil | ⟨hawaits, name, actual, hone | ⟨bytes, htwo⟩⟩
      · rwa [hnil, List.append_nil]
      all_goals
        have hresult := ih.concat
          (r := (setup.after now world h).stamp (entry.1.nth 0)
            (.fileReadResult name handle actual))
          (fun _ hres => by cases hres; exact setup.lastReadLine?_of_awaits now world hawaits)
          fun hdata => by cases hdata
      · rwa [hone]
      · rw [htwo, List.append_cons]
        exact hresult.concat (fun _ hres => by cases hres) fun _ => ⟨_, _, handle, rfl, rfl⟩

/-! ### Completions without an answer -/

/-- No read waits as long as no request is written. -/
theorem slot_of_no_request {before k : History}
    (hnone : (setup.after now world before).files.pending.slot = none)
    (hk : ∀ r ∈ setup.traceSince now world before k, ∀ handle,
      r.readLine? ≠ some (.request handle)) :
    (setup.after now world (before ++ k)).files.pending.slot = none := by
  induction k using List.reverseRecOn with
  | nil => rwa [List.append_nil]
  | append_singleton k entry ih =>
    rw [traceSince_concat] at hk
    obtain ⟨hbefore, hanswer⟩ := List.forall_mem_append.1 hk
    rw [← List.append_assoc, after_concat, Session.step_slot]
    split_ifs
    · rfl
    rcases ht : (setup.after now world (before ++ k)).tracedHalf? entry.2 with
      _ | ⟨request⟩ | ⟨handle⟩
    · exact ih hbefore
    · -- a traced issue writes a request
      obtain ⟨htraces, hissued⟩ := Session.tracedHalf?_eq_some.1 ht
      obtain ⟨t, call⟩ := entry
      obtain ⟨host, rfl⟩ := Session.Call.exists_of_issued hissued
      rw [Session.answer_readIssued, if_pos htraces] at hanswer
      exact absurd rfl (hanswer _ List.mem_cons_self request.handle)
    · rfl

theorem answer_eq_nil_of_slot {h : History} {entry : Readings × Session.Call} {handle : UInt16}
    (hnone : (setup.after now world h).files.pending.slot = none)
    (hc : entry.2.half? = some (.completed handle)) :
    (setup.after now world h).answer entry = [] := by
  rcases (setup.after now world h).answer_completed_cases hc with hnil | ⟨hawaits, -⟩
  · exact hnil
  · rw [Session.awaits, hnone] at hawaits
    exact Bool.noConfusion hawaits

/-- After the end of the session no read waits. -/
theorem slot_of_shutdown {h : History} (hd : ∃ entry ∈ h, entry.2.isShutdown = true) :
    (setup.after now world h).files.pending.slot = none := by
  rw [slot_after, after_ready, setup.acceptsAfter_eq_false_iff.2 (Or.inr hd),
    if_neg Bool.false_ne_true]

/-! ### The law -/

/-- How reads show in what a session writes: in its trace so far, and in its answer to the next
call. -/
structure PairsReads (h : History) : Prop where
  paired : ReadsPaired (setup.trace now world h)
  /-- Every result uses up a request of its own. -/
  results_le : ∀ handle front, front <+: setup.trace now world h →
    results handle front ≤ requests handle front
  /-- Only a completion is answered with a result or with data, and the data are next to the result
  of the same completion. -/
  answered : ∀ entry, (∃ r ∈ (setup.after now world h).answer entry,
      r.isData = true ∨ ∃ handle, r.readLine? = some (.result handle)) →
    ∃ handle name actual, entry.2.half? = some (.completed handle) ∧
      ((setup.after now world h).answer entry =
          [(setup.after now world h).stamp (entry.1.nth 0)
            (.fileReadResult name handle actual)] ∨
        ∃ bytes, (setup.after now world h).answer entry =
          [(setup.after now world h).stamp (entry.1.nth 0) (.fileReadResult name handle actual),
            (setup.after now world h).stamp (entry.1.nth 1) (.fileData bytes)])
  /-- A completion for any other handle than that of the last request has no answer, nor has one
  whose request has its result. -/
  mismatched : ∀ entry handle, entry.2.half? = some (.completed handle) →
    lastReadLine? (setup.trace now world h) ≠ some (.request handle) →
    (setup.after now world h).answer entry = []
  /-- After a traced completion, whether it was answered or not, no completion has an answer until
  another request is written. -/
  repeated : ∀ first handle k second other,
    (setup.after now world h).tracedHalf? first.2 = some (.completed handle) →
    (∀ r ∈ setup.traceSince now world (h ++ [first]) k, ∀ handle,
      r.readLine? ≠ some (.request handle)) →
    second.2.half? = some (.completed other) →
    (setup.after now world (h ++ [first] ++ k)).answer second = []
  /-- After the end of the session no completion has an answer. -/
  ended : (∃ entry ∈ h, entry.2.isShutdown = true) → ∀ entry handle,
    entry.2.half? = some (.completed handle) → (setup.after now world h).answer entry = []

/-- **Reads are paired in every trace.** -/
theorem reads_paired (h : History) : setup.PairsReads now world h where
  paired := setup.readsPaired_trace now world h
  results_le handle front hp := by
    obtain ⟨back, heq⟩ := hp
    have hpaired : ReadsPaired (front ++ back) := heq ▸ setup.readsPaired_trace now world h
    exact Nat.le_of_add_right_le (hpaired.of_append.results_add_le handle)
  answered entry hr := by
    obtain ⟨r, hr, hline⟩ := hr
    obtain ⟨handle, hc⟩ : ∃ handle, entry.2.half? = some (.completed handle) := by
      refine (setup.sound_after now world h).exists_completed hr
        (Bool.of_not_eq_false fun hf => ?_) ?_
      · rw [Record.isData_eq_false hf, Record.readLine?_eq_none hf] at hline
        rcases hline with hdata | ⟨handle, hres⟩
        · cases hdata
        · cases hres
      · rintro t name request rfl
        rcases hline with hdata | ⟨handle, hres⟩
        · cases hdata
        · cases hres
    rcases (setup.after now world h).answer_completed_cases hc with
      hnil | ⟨-, name, actual, hanswer⟩
    · rw [hnil] at hr
      exact absurd hr List.not_mem_nil
    · exact ⟨handle, name, actual, hc, hanswer⟩
  mismatched entry handle hc hlast := by
    rcases (setup.after now world h).answer_completed_cases hc with hnil | ⟨hawaits, -⟩
    · exact hnil
    · exact absurd (setup.lastReadLine?_of_awaits now world hawaits) hlast
  repeated first handle k second other hfirst hk hsecond := by
    refine setup.answer_eq_nil_of_slot now world (setup.slot_of_no_request now world ?_ hk) hsecond
    rw [after_concat, Session.step_slot, hfirst]
    exact ite_self _
  ended hd entry handle hc :=
    setup.answer_eq_nil_of_slot now world (setup.slot_of_shutdown now world hd) hc

end Setup

end RealModeTrace
