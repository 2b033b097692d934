import RealModeTrace.Proofs.Session.HandleNames
import RealModeTrace.Proofs.Trace.Width

/-!
# What the records of a session say

Every record of a history was made by the start or by one of its calls, and says no more than that
call and the state before it.

* `Session.Call.texts`, `Setup.texts`: the texts that a call and a whole history bring from outside;
* `Session.Explained`, `Sound.explained`: what a record of a call says;
* `Sound.record_cases`: the records of a call bear times since the epoch as it is after the call;
* `Setup.mem_trace_cases`: where the records of a history come from;
* `Setup.windowed_of_mem_trace`, `Setup.depth_of_mem_trace`, `Setup.names_of_mem_trace`: the bytes,
  the depths and the texts in the records of a history.
-/

namespace RealModeTrace

/-! ### Records of a call -/

/-- The texts that a call brings from outside. A program without command line has the empty one. -/
def Session.Call.texts : Call → List String
  | .event _ (.fileCreated filename _) => [filename]
  | .event _ (.fileOpened filename _) => [filename]
  | .event _ (.handleOpened _ filename) => [filename]
  | .event _ (.programExec filename cmdline) => [filename, cmdline.getD ""]
  | _ => []

@[simp] theorem Host.length_bytes (host : Host) (address : UInt32) (count : Nat) :
    (host.bytes address count).length = count := by
  rw [Host.bytes, List.length_map, List.length_range]

/-- No more bytes of a read are shown than the ceiling allows. -/
theorem FileLog.length_le_of_mem_completeRead {log : FileLog} {host : Host}
    {handle actual : UInt16} {buffer : UInt32} {limit : Nat} {bytes : List UInt8}
    (h : .fileData bytes ∈ (log.completeRead host handle actual buffer limit).2) :
    bytes.length ≤ dumpCeiling.toNat := by
  unfold completeRead at h
  rcases hp : log.pending.complete handle with ⟨pending, _ | request⟩ <;> rw [hp] at h
  · exact absurd h List.not_mem_nil
  · rcases List.mem_cons.1 h with h | h
    · cases h
    · obtain ⟨-, h⟩ := List.mem_ite_nil_left.1 h
      obtain rfl := Payload.fileData.inj (List.mem_singleton.1 h)
      rw [Host.length_bytes]
      exact Nat.min_le_right _ _

namespace Session

/-- A record says no more than a call and the state before it: a window of the memory, a depth that
is at most one below the depth, and texts of the call or names of handles. -/
structure Explained (s : Session) (call : Call) (r : Record) : Prop where
  windowed : r.Windowed
  depth_mem : ∀ depth ∈ r.depth?, -1 ≤ depth ∧ depth ≤ s.activation.depth
  names_mem : ∀ name ∈ r.names,
    name ∈ call.texts ∨ ∃ handle, name = s.files.handles.lookup handle

variable {s : Session}

/-- A record that shows no depth. -/
theorem explained_of_names {call : Call} {r : Record} (hwindow : r.Windowed)
    (hdepth : r.depth? = none)
    (hnames : ∀ name ∈ r.names,
      name ∈ call.texts ∨ ∃ handle, name = s.files.handles.lookup handle) :
    s.Explained call r where
  windowed := hwindow
  depth_mem depth h := by rw [hdepth] at h; exact absurd h (Option.not_mem_none depth)
  names_mem := hnames

/-- A record that shows a depth. -/
theorem explained_of_depth {call : Call} {r : Record} {shown : Int} (hwindow : r.Windowed)
    (hshown : r.depth? = some shown) (hnames : r.names = [])
    (hmem : -1 ≤ shown ∧ shown ≤ s.activation.depth) : s.Explained call r where
  windowed := hwindow
  depth_mem depth h := by
    rw [hshown] at h
    rwa [← Option.mem_some_iff.1 h]
  names_mem name h := by rw [hnames] at h; exact absurd h List.not_mem_nil

theorem Explained.of_mem_ite {c : Prop} [Decidable c] {call : Call} {r made : Record}
    (hr : r ∈ if c then [made] else []) (h : s.Explained call made) : s.Explained call r := by
  obtain ⟨-, hr⟩ := List.mem_ite_nil_right.1 hr
  rwa [List.mem_singleton.1 hr]

theorem Sound.explained (hs : s.Sound) {entry : Readings × Call} {r : Record}
    (hr : r ∈ s.answer entry) : s.Explained entry.2 r := by
  obtain ⟨clock, call⟩ := entry
  have hground := hs.grounded.nonneg
  cases call with
  | update c => exact absurd hr List.not_mem_nil
  | shutdown =>
    rw [eq_of_mem_closingRecords hr]
    exact explained_of_names trivial rfl nofun
  | event host event =>
    have hmade : r ∈ (s.observe clock host event).2 := hr
    rw [observe_snd] at hmade
    cases event with
    | handleOpened _ _ | setRegisters _ | poke _ _ _ | setBatch _ =>
      exact absurd hr List.not_mem_nil
    | instructionFetched cs ip =>
      exact .of_mem_ite hmade (explained_of_names (host.length_bytes _ _) rfl nofun)
    | interruptInvoked _ | videoModeChanging _ _ =>
      exact .of_mem_ite hmade (explained_of_names trivial rfl nofun)
    | fileCreated _ _ | fileOpened _ _ =>
      exact .of_mem_ite hmade (explained_of_names trivial rfl fun name h => Or.inl h)
    | fileClosed handle | readIssued handle _ _ _ =>
      exact .of_mem_ite hmade
        (explained_of_names trivial rfl fun name h => Or.inr ⟨handle, List.mem_singleton.1 h⟩)
    | programStayedResident exitCode =>
      exact .of_mem_ite hmade (explained_of_depth trivial rfl rfl (by omega))
    | readCompleted handle actual buffer =>
      obtain ⟨-, hmade⟩ := List.mem_ite_nil_right.1 hmade
      obtain ⟨n, payload, hp, rfl⟩ := mem_stampAll hmade
      rcases FileLog.eq_of_mem_completeRead hp with rfl | ⟨bytes, rfl⟩
      · exact explained_of_names trivial rfl fun name h => Or.inr ⟨handle, List.mem_singleton.1 h⟩
      · exact explained_of_names (FileLog.length_le_of_mem_completeRead hp) rfl nofun
    | programExec filename cmdline =>
      rw [hs.answer_load] at hr
      have hload (elapsed : UInt64) : s.Explained (.event host (.programExec filename cmdline))
          (.timed elapsed (.ofLoad host filename cmdline)) :=
        explained_of_names trivial rfl fun name h => Or.inl h
      split_ifs at hr
      · rw [List.mem_singleton.1 hr]
        exact hload _
      · rcases List.mem_pair.1 hr with rfl | rfl
        · exact hload _
        · exact explained_of_names trivial rfl nofun
      · exact absurd hr List.not_mem_nil
    | programTerminated exitCode =>
      rw [hs.answer_exit] at hr
      have hexit : s.Explained (.event host (.programTerminated exitCode))
          (s.stamp (clock.nth 0) (.terminated exitCode (s.activation.depth - 1))) :=
        explained_of_depth trivial rfl rfl (by omega)
      split_ifs at hr
      · rcases List.mem_pair.1 hr with rfl | rfl
        · exact hexit
        · exact explained_of_names trivial rfl nofun
      · rw [List.mem_singleton.1 hr]
        exact hexit
      · exact absurd hr List.not_mem_nil

/-- A record of a call bears the time from the epoch as it is after the call to a reading of the
call, or it is the banner of an exit that ends the trace or of the end of the session. -/
theorem Sound.record_cases (hs : s.Sound) (world : World) {entry : Readings × Call} {r : Record}
    (hr : r ∈ s.answer entry) :
    (∃ n payload, r =
      .timed ((s.step world entry.1 entry.2).1.elapsed (entry.1.nth n)) payload) ∨
      entry.2.isExit = true ∧ r = .banner .deactivated ∨
      entry.2.isShutdown = true ∧ r = .banner .ended := by
  obtain ⟨clock, call⟩ := entry
  cases call with
  | update c => exact absurd hr List.not_mem_nil
  | shutdown => exact Or.inr (Or.inr ⟨rfl, eq_of_mem_closingRecords hr⟩)
  | event host event =>
    -- a call that does not switch tracing on leaves the epoch alone
    have hstamp (hsame : (!s.isActive &&
        (s.step world clock (.event host event)).1.isActive) = false) (n : Nat)
        (payload : Payload) : s.stamp (clock.nth n) payload =
          .timed ((s.step world clock (.event host event)).1.elapsed (clock.nth n)) payload := by
      rw [stamp, elapsed_eq, elapsed_eq, hs.step_epoch, hsame]
      rfl
    have hactive := hs.step_isActive world clock (.event host event)
    have hmade : r ∈ (s.observe clock host event).2 := hr
    rw [observe_snd] at hmade
    cases event with
    | handleOpened _ _ | setRegisters _ | poke _ _ _ | setBatch _ =>
      exact absurd hr List.not_mem_nil
    | programExec filename cmdline =>
      rw [hs.answer_load] at hr
      split_ifs at hr with ha hload
      · rw [List.mem_singleton.1 hr]
        exact Or.inl ⟨_, _, hstamp (by rw [ha]; rfl) 0 _⟩
      · -- a load that switches it on counts from its own first reading
        have hsince (n : Nat) :
            (s.step world clock (.event host (.programExec filename cmdline))).1.elapsed
              (clock.nth n) = clock.sinceFirst n := by
          rw [Bool.not_eq_true] at ha
          rw [elapsed_eq, hs.step_epoch, hactive]
          simp only [Call.isShutdown, Call.isLoad, ha, hload]
          rfl
        dsimp only
        rcases List.mem_pair.1 hr with rfl | rfl
        · exact Or.inl ⟨1, _, by rw [hsince]⟩
        · exact Or.inl ⟨2, _, by rw [hsince]⟩
      · exact absurd hr List.not_mem_nil
    | programTerminated exitCode =>
      have hoff : (!s.isActive && (s.isActive && decide (1 < s.activation.depth))) = false := by
        cases s.isActive <;> rfl
      rw [hs.answer_exit] at hr
      split_ifs at hr
      · rcases List.mem_pair.1 hr with rfl | rfl
        · exact Or.inl ⟨_, _, hstamp (by rw [hactive]; exact hoff) 0 _⟩
        · exact Or.inr (Or.inl ⟨rfl, rfl⟩)
      · rw [List.mem_singleton.1 hr]
        exact Or.inl ⟨_, _, hstamp (by rw [hactive]; exact hoff) 0 _⟩
      · exact absurd hr List.not_mem_nil
    | readCompleted handle actual buffer =>
      obtain ⟨-, hmade⟩ := List.mem_ite_nil_right.1 hmade
      obtain ⟨n, payload, -, rfl⟩ := mem_stampAll hmade
      exact Or.inl ⟨n, payload, hstamp (by rw [hactive]; exact Bool.not_and_self _) n payload⟩
    | _ =>
      obtain ⟨-, hmade⟩ := List.mem_ite_nil_right.1 hmade
      rw [List.mem_singleton.1 hmade]
      exact Or.inl ⟨_, _, hstamp (by rw [hactive]; exact Bool.not_and_self _) 0 _⟩

end Session

/-! ### Records of a history -/

/-- The name of a handle is unknown, or one that the handle was opened with. -/
theorem latestName_mem (changes : List NameChange) (handle : UInt16) :
    latestName changes handle = unknownFile ∨
      ∃ other, NameChange.opened other (latestName changes handle) ∈ changes := by
  unfold latestName
  split
  · next change h =>
    have hmem := List.mem_reverse.1 (List.mem_of_find?_eq_some h)
    cases change with
    | opened other name => exact Or.inr ⟨other, hmem⟩
    | _ => exact Or.inl rfl
  · exact Or.inl rfl

theorem mem_texts_of_opened {h : History} {handle : UInt16} {name : String}
    (hmem : .opened handle name ∈ nameChanges h) : ∃ entry ∈ h, name ∈ entry.2.texts := by
  obtain ⟨⟨clock, call⟩, hentry, hchange⟩ := List.mem_filterMap.1 hmem
  refine ⟨(clock, call), hentry, ?_⟩
  cases call with
  | event host event =>
    cases event with
    | handleOpened other filename =>
      obtain ⟨-, rfl⟩ := NameChange.opened.inj (Option.some.inj hchange)
      exact List.mem_cons_self
    | _ => cases hchange
  | _ => cases hchange

namespace Setup

variable (setup : Setup) (now : Duration) (world : World)

/-- The texts that the start and a history bring from outside. The path of the log is shown only if
the log cannot be opened. -/
def texts (h : History) : List String :=
  (setup.openSink world).2.2.toList.map OpenError.path ++ h.flatMap (·.2.texts)

/-- A record of a history is one of the start or of a call. -/
theorem mem_trace_cases {h : History} {r : Record} (hr : r ∈ setup.trace now world h) :
    r ∈ (setup.start now world).2.2 ∨ ∃ before entry, before ++ [entry] <+: h ∧
      r ∈ (setup.after now world before).answer entry := by
  induction h using List.reverseRecOn with
  | nil => exact Or.inl (by rwa [trace_nil] at hr)
  | append_singleton h entry ih =>
    rw [trace_concat, List.mem_append] at hr
    rcases hr with hr | hr
    · exact (ih hr).imp_right fun ⟨before, earlier, hp, hmem⟩ =>
        ⟨before, earlier, hp.trans (List.prefix_append ..), hmem⟩
    · exact Or.inr ⟨h, entry, List.prefix_refl _, hr⟩

theorem windowed_of_mem_trace {h : History} {r : Record} (hr : r ∈ setup.trace now world h) :
    r.Windowed := by
  rcases setup.mem_trace_cases now world hr with hr | ⟨before, entry, -, hr⟩
  · rcases setup.eq_banner_of_mem_start now world hr with rfl | ⟨error, -, rfl⟩ <;> trivial
  · exact ((setup.sound_after now world before).explained hr).windowed

/-- A depth that is shown is at least minus one, and at most the number of loads. -/
theorem depth_of_mem_trace {h : History} {r : Record} (hr : r ∈ setup.trace now world h)
    {depth : Int} (hd : depth ∈ r.depth?) : -1 ≤ depth ∧ depth ≤ loads h := by
  rcases setup.mem_trace_cases now world hr with hr | ⟨before, entry, hp, hr⟩
  · rcases setup.eq_banner_of_mem_start now world hr with rfl | ⟨error, -, rfl⟩ <;> cases hd
  · have hmem := ((setup.sound_after now world before).explained hr).depth_mem depth hd
    have hafter := setup.depth_after_le now world before
    have hloads : loads before ≤ loads h :=
      ((List.prefix_append ..).trans hp).sublist.countP_le
    omega

/-- A text that is shown was brought from outside, or is the name of a handle without one. -/
theorem names_of_mem_trace {h : History} {r : Record} (hr : r ∈ setup.trace now world h)
    {name : String} (hname : name ∈ r.names) : name ∈ setup.texts world h ∨ name = unknownFile := by
  rcases setup.mem_trace_cases now world hr with hr | ⟨before, entry, hp, hr⟩
  · rcases setup.eq_banner_of_mem_start now world hr with rfl | ⟨error, he, rfl⟩
    · cases hname
    · obtain rfl := List.mem_singleton.1 hname
      exact Or.inl (List.mem_append_left _ (List.mem_map_of_mem (Option.mem_toList.2 he)))
  have hcall : ∀ e ∈ before ++ [entry], name ∈ e.2.texts → name ∈ setup.texts world h :=
    fun e he htext => List.mem_append_right _ (List.mem_flatMap.2 ⟨e, hp.subset he, htext⟩)
  rcases ((setup.sound_after now world before).explained hr).names_mem name hname with
    htext | ⟨handle, rfl⟩
  · exact Or.inl (hcall entry (by simp) htext)
  · rw [lookup_after] at hcall ⊢
    rcases latestName_mem (nameChanges before) handle with hunknown | ⟨other, hmem⟩
    · exact Or.inr hunknown
    · obtain ⟨e, he, htext⟩ := mem_texts_of_opened hmem
      exact Or.inl (hcall e (List.mem_append_left _ he) htext)

end Setup

end RealModeTrace
