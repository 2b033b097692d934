import RealModeTrace.Proofs.Session.Reads

/-!
# Fresh reads

The result of a read is fresh if the read was issued just before: the last half of a read that was
delivered before the completion, traced or not, is the issue of a read from the same handle. A half
that is not traced leaves the slot of the waiting read alone, so a request can outlive the trace it
was issued in, and a completion long after may be taken for its own.

* `Setup.reports_iff`: which completions are reported, read off the history;
* `Setup.Leak`, `Setup.Leaks`: a request that waits through untraced halves until a completion comes
  that is not its own;
* `Setup.results_fresh_iff`: the results of a history are fresh exactly if no request of it leaks;
* `Setup.stale_result_reported`: a history in which one does.
-/

namespace RealModeTrace

theorem readHalves_append (h k : History) : readHalves (h ++ k) = readHalves h ++ readHalves k :=
  List.filterMap_append

theorem readHalves_singleton (entry : Readings × Session.Call) :
    readHalves [entry] = entry.2.half?.toList := by
  unfold readHalves
  rw [List.filterMap_cons, List.filterMap_nil]
  rcases entry.2.half? with _ | half <;> rfl

/-- The last half of a history issues a read from this handle. -/
def LastIssues (handle : UInt16) (h : History) : Prop :=
  (readHalves h).getLast?.any (·.issues handle) = true

instance (handle : UInt16) (h : History) : Decidable (LastIssues handle h) :=
  inferInstanceAs (Decidable (_ = true))

/-- The last half is in the later part of a history, if that has any. -/
theorem lastIssues_append_of_ne_nil (handle : UInt16) (h : History) {k : History}
    (hk : readHalves k ≠ []) : LastIssues handle (h ++ k) ↔ LastIssues handle k := by
  unfold LastIssues
  rw [readHalves_append, List.getLast?_append_of_ne_nil _ hk]

theorem lastIssues_append_of_eq_nil (handle : UInt16) (h : History) {k : History}
    (hk : readHalves k = []) : LastIssues handle (h ++ k) ↔ LastIssues handle h := by
  unfold LastIssues
  rw [readHalves_append, hk, List.append_nil]

/-- The last half of a history that ends with an issue. -/
theorem lastIssues_concat_of_issued {entry : Readings × Session.Call} {request : ReadRequest}
    (hh : entry.2.half? = some (.issued request)) (h : History) :
    LastIssues request.handle (h ++ [entry]) := by
  unfold LastIssues
  rw [readHalves_append, readHalves_singleton, hh, Option.toList_some, List.getLast?_concat]
  exact beq_self_eq_true request.handle

namespace Setup

variable (setup : Setup) (now : Duration) (world : World)

/-! ### Which completions are reported -/

/-- The next call is answered with the result of a read from this handle. -/
def Reports (before : History) (entry : Readings × Session.Call) (handle : UInt16) : Prop :=
  ∃ r ∈ (setup.after now world before).answer entry, r.resultHandle? = some handle

/-- A completion is reported exactly if it is traced, and the last traced half before it issued a
read from the same handle. -/
theorem reports_iff (before : History) (entry : Readings × Session.Call) (handle : UInt16) :
    setup.Reports now world before entry handle ↔
      (setup.after now world before).tracedHalf? entry.2 = some (.completed handle) ∧
        (setup.tracedHalves now world before).getLast?.any (·.issues handle) = true := by
  refine (setup.sound_after now world before).reports_iff.trans (and_congr_right fun ht => ?_)
  rw [awaits_eq _ _ _ _ _ (Session.tracedHalf?_eq_some.1 ht).1]

/-- The last traced half of a history cuts it in two, and no half after it is traced. -/
theorem exists_of_getLast?_tracedHalves {h : History} {half : ReadHalf}
    (hl : (setup.tracedHalves now world h).getLast? = some half) :
    ∃ before entry between, h = before ++ [entry] ++ between ∧
      (setup.after now world before).tracedHalf? entry.2 = some half ∧
      setup.tracedSince now world (before ++ [entry]) between = [] := by
  induction h using List.reverseRecOn with
  | nil => cases hl
  | append_singleton h entry ih =>
    rw [tracedHalves_concat] at hl
    rcases ht : (setup.after now world h).tracedHalf? entry.2 with _ | other
    · -- the last call adds nothing, so the cut is the one of the calls before it
      rw [ht, Option.toList_none, List.append_nil] at hl
      obtain ⟨before, last, between, rfl, hlast, hnone⟩ := ih hl
      refine ⟨before, last, between ++ [entry], List.append_assoc .., hlast, ?_⟩
      rw [tracedSince_append, hnone, tracedSince_singleton, ht]
      rfl
    · rw [ht, Option.toList_some, List.getLast?_concat] at hl
      cases hl
      exact ⟨h, entry, [], (List.append_nil _).symm, ht, rfl⟩

/-! ### Requests that leak -/

/-- A request is issued while file events are traced; the halves after it are not traced, and the
last of them issues no read from its handle; and then a completion for its handle is traced. -/
structure Leak (before : History) (issue : Readings × Session.Call) (between : History)
    (completion : Readings × Session.Call) (request : ReadRequest) : Prop where
  issued : (setup.after now world before).tracedHalf? issue.2 = some (.issued request)
  untraced : setup.tracedSince now world (before ++ [issue]) between = []
  delivered : readHalves between ≠ []
  elsewhere : ¬ LastIssues request.handle between
  completed : (setup.after now world (before ++ [issue] ++ between)).tracedHalf? completion.2 =
    some (.completed request.handle)

/-- Some request of the history leaks. -/
def Leaks (h : History) : Prop :=
  ∃ before issue between completion request,
    before ++ [issue] ++ between ++ [completion] <+: h ∧
      setup.Leak now world before issue between completion request

variable {setup now world}

/-- A request that leaks is reported by a completion that is not its own. -/
theorem Leak.disobeys {before between : History} {issue completion : Readings × Session.Call}
    {request : ReadRequest} (hl : setup.Leak now world before issue between completion request) :
    setup.Reports now world (before ++ [issue] ++ between) completion request.handle ∧
      ¬ LastIssues request.handle (before ++ [issue] ++ between) := by
  constructor
  · refine (setup.reports_iff now world _ _ _).2 ⟨hl.completed, ?_⟩
    rw [tracedHalves_append, hl.untraced, List.append_nil, tracedHalves_concat, hl.issued,
      Option.toList_some, List.getLast?_concat]
    exact beq_self_eq_true request.handle
  · rw [lastIssues_append_of_ne_nil _ _ hl.delivered]
    exact hl.elsewhere

/-- A completion that is reported although its read was not issued just before ends a leak. -/
theorem exists_leak {before : History} {entry : Readings × Session.Call} {handle : UInt16}
    (hr : setup.Reports now world before entry handle) (hn : ¬ LastIssues handle before) :
    ∃ early issue between request, before = early ++ [issue] ++ between ∧
      setup.Leak now world early issue between entry request := by
  obtain ⟨hcompleted, hlast⟩ := (setup.reports_iff now world _ _ _).1 hr
  obtain ⟨half, hhalf, hissues⟩ := (Option.any_eq_true _ _).1 hlast
  obtain ⟨request, rfl, rfl⟩ := ReadHalf.issues_iff.1 hissues
  obtain ⟨early, issue, between, rfl, hissued, hnone⟩ :=
    setup.exists_of_getLast?_tracedHalves now world hhalf
  have hissue := lastIssues_concat_of_issued (Session.tracedHalf?_eq_some.1 hissued).2 early
  -- without a half in between, the issue would be the last half
  have hdelivered : readHalves between ≠ [] := fun heq =>
    hn ((lastIssues_append_of_eq_nil _ _ heq).2 hissue)
  refine ⟨early, issue, between, request, rfl, hissued, hnone, hdelivered, ?_, hcompleted⟩
  rwa [lastIssues_append_of_ne_nil _ _ hdelivered] at hn

variable (setup now world)

/-- **When the results of reads are fresh.** In every history, a completion is reported exactly if
it is traced and the last traced half before it issued a read from its handle; and every read whose
result is reported was issued by the last half before its completion, traced or not, exactly if no
request of the history leaks. -/
theorem results_fresh_iff (h : History) :
    (∀ before entry handle, before ++ [entry] <+: h →
      (setup.Reports now world before entry handle ↔
        (setup.after now world before).tracedHalf? entry.2 = some (.completed handle) ∧
          (setup.tracedHalves now world before).getLast?.any (·.issues handle) = true)) ∧
      ((∀ before entry handle, before ++ [entry] <+: h →
        setup.Reports now world before entry handle → LastIssues handle before) ↔
        ¬ setup.Leaks now world h) := by
  refine ⟨fun before entry handle _ => setup.reports_iff now world before entry handle, ?_, ?_⟩
  · rintro hfresh ⟨before, issue, between, completion, request, hp, hleak⟩
    obtain ⟨hreports, hlast⟩ := hleak.disobeys
    exact hlast (hfresh _ completion _ hp hreports)
  · intro hn before entry handle hp hreports
    by_contra hlast
    obtain ⟨early, issue, between, request, rfl, hleak⟩ := exists_leak hreports hlast
    exact hn ⟨early, issue, between, entry, request, hp, hleak⟩

/-! ### A history in which a request leaks -/

/-- A program is loaded, issues a read from handle 5 and exits; the read completes only then, while
nothing is traced; and another program is loaded. -/
def abandonedRead : History :=
  [(0, .event .blank (.programExec "A.EXE" none)),
    (0, .event .blank (.readIssued 5 16 0x1000 0)),
    (0, .event .blank (.programTerminated 0)),
    (0, .event .blank (.readCompleted 5 16 0x10000)),
    (0, .event .blank (.programExec "B.EXE" none))]

/-- A completion for handle 5, of a read that was never issued. -/
def strayCompletion : Readings × Session.Call :=
  (0, .event .blank (.readCompleted 5 0 0x20000))

/-- The stray completion is reported as the result of the abandoned read, which has completed. -/
theorem stale_result_reported :
    (({ config := { enabled := true } } : Setup).after 0 {} abandonedRead).answer strayCompletion =
        [.timed 0 (.fileReadResult unknownFile 5 0)] ∧
      (readHalves abandonedRead).getLast? = some (.completed 5) ∧
      ¬ LastIssues 5 abandonedRead := by
  decide +kernel

end Setup

end RealModeTrace
