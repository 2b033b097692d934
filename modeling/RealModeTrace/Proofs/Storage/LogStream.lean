import RealModeTrace.Proofs.Storage.FileTree
import RealModeTrace.Proofs.Text.Lines
import RealModeTrace.Storage.Sink

/-!
# A file behind its buffer

What a stream has been given is in its file, and after that in its buffer. Writing adds to both
taken together, and handing the buffer to the file changes neither, as long as the file is stored.

* `LogStream.Holds`: what is in a stored file and in the buffer before it; `Holds.writeLine`: a line
  that is written comes after that, and is in the file;
* `LogStream.buffer_of_writeLine`: after a line that was written, nothing waits in the buffer;
* `LogStream.buffer_ne_of_writeLine`: what a file refuses waits there, unless it is too long;
* `LogStream.refuses_of_writeLine`: a file that refuses a part of a line refuses all that comes
  next;
* `Sink.writeLine_of_taken`, `Sink.writeLine_of_close`: a file that takes a line has nothing left to
  refuse, and one that can be closed after a short line has taken that;
  `Sink.flush_of_writeLine`: what waits is refused again when the file is closed.
-/

namespace RealModeTrace

namespace LogStream

variable {s t : LogStream} {bytes : ByteArray} {cause : FileError}

/-! ### Stored files -/

/-- The file is stored, and has these bytes together with those in the buffer. -/
structure Holds (s : LogStream) (bytes : ByteArray) : Prop where
  stored : ∃ old, s.files.node? s.loc = some (.file old) ∧ bytes = old ++ Text.utf8 s.buffer

theorem Holds.file_eq (h : s.Holds bytes) (hbuffer : s.buffer = "") :
    s.files.node? s.loc = some (.file bytes) := by
  obtain ⟨old, hfile, rfl⟩ := h.stored
  rw [hbuffer, hfile]
  exact congrArg (some <| Node.file ·) ByteArray.append_empty.symm

theorem Holds.flush (h : s.Holds bytes) :
    ∃ t, s.flush = (t, none) ∧ t.Holds bytes ∧ t.buffer = "" ∧ t.loc = s.loc := by
  unfold LogStream.flush
  split_ifs with hbuffer
  · exact ⟨s, rfl, h, hbuffer, rfl⟩
  · obtain ⟨old, hfile, rfl⟩ := h.stored
    obtain ⟨files, happend, hnode⟩ := FileTree.append_of_file (Text.utf8 s.buffer) hfile
    rw [happend]
    exact ⟨_, rfl, ⟨_, hnode, ByteArray.append_empty.symm⟩, rfl, rfl⟩

/-- A text that goes past the buffer must find it empty. -/
theorem Holds.take (h : s.Holds bytes) {text : String}
    (hroom : text.utf8ByteSize < capacity ∨ s.buffer = "") :
    ∃ t, s.take text = (t, none) ∧ t.Holds (bytes ++ Text.utf8 text) ∧ t.loc = s.loc := by
  unfold LogStream.take
  obtain ⟨old, hfile, rfl⟩ := h.stored
  split_ifs with hshort
  · refine ⟨_, rfl, ⟨old, hfile, ?_⟩, rfl⟩
    rw [Text.utf8_append, ByteArray.append_assoc]
  · have hbuffer := hroom.resolve_left hshort
    obtain ⟨files, happend, hnode⟩ := FileTree.append_of_file (Text.utf8 text) hfile
    rw [happend]
    refine ⟨_, rfl, ⟨_, hnode, ?_⟩, rfl⟩
    rw [hbuffer]
    exact congrArg (· ++ Text.utf8 text) ByteArray.append_empty |>.trans
      ByteArray.append_empty.symm

/-- A text that fills the buffer by itself has room in it only if it is empty. -/
theorem buffer_of_room {text : String}
    (hroom : s.buffer.utf8ByteSize + text.utf8ByteSize ≤ capacity) :
    text.utf8ByteSize < capacity ∨ s.buffer = "" := by
  rcases Nat.lt_or_ge text.utf8ByteSize capacity with h | h
  · exact Or.inl h
  · exact Or.inr (String.utf8ByteSize_eq_zero_iff.1 (by omega))

theorem Holds.write (h : s.Holds bytes) (text : String) :
    ∃ t, s.write text = (t, none) ∧ t.Holds (bytes ++ Text.utf8 text) ∧ t.loc = s.loc := by
  unfold LogStream.write
  split_ifs with hroom
  · exact h.take (buffer_of_room hroom)
  · obtain ⟨t, hflush, hholds, hempty, hloc⟩ := h.flush
    rw [hflush, ← hloc]
    exact hholds.take (Or.inr hempty)

/-- A line that is written to a stored file is there, with its line end. -/
theorem Holds.writeLine (h : s.Holds bytes) (line : String) :
    ∃ t, s.writeLine line = (t, none) ∧ t.Holds (bytes ++ Text.utf8 (line ++ "\n")) ∧
      t.buffer = "" ∧ t.loc = s.loc := by
  obtain ⟨t, hline, hholds, hloc⟩ := h.write line
  obtain ⟨u, hend, hholds, hloc'⟩ := hholds.write "\n"
  obtain ⟨v, hflush, hholds, hempty, hloc''⟩ := hholds.flush
  refine ⟨v, ?_, ?_, hempty, hloc''.trans (hloc'.trans hloc)⟩
  · rw [LogStream.writeLine, hline, andThen, hend, andThen, hflush]
  · rwa [Text.utf8_append, ← ByteArray.append_assoc]

/-! ### What waits -/

/-- Nothing waits after the buffer was handed over. -/
theorem buffer_of_flush (h : s.flush = (t, none)) : t.buffer = "" := by
  unfold flush at h
  split_ifs at h with hbuffer
  · obtain ⟨rfl, -⟩ := Prod.mk.inj h
    exact hbuffer
  · split at h <;> cases h
    rfl

/-- What the file refuses stays in the buffer. -/
theorem buffer_ne_of_flush (h : s.flush = (t, some cause)) : t.buffer ≠ "" := by
  unfold flush at h
  split_ifs at h with hbuffer
  · cases h
  · split at h <;> cases h
    exact hbuffer

/-- A text for which there is room in the buffer is not refused. -/
theorem take_of_short {text : String} (h : text.utf8ByteSize < capacity) :
    (s.take text).2 = none := by
  rw [take, if_pos h]

theorem buffer_ne_of_write {text : String} (hshort : text.utf8ByteSize < capacity)
    (h : s.write text = (t, some cause)) : t.buffer ≠ "" := by
  have htake (u : LogStream) : u.take text ≠ (t, some cause) := fun heq => by
    cases (congrArg Prod.snd heq).symm.trans (take_of_short hshort)
  unfold write at h
  split_ifs at h
  · exact absurd h (htake s)
  · rcases hflush : s.flush with ⟨u, _ | other⟩ <;> rw [hflush, andThen] at h
    · exact absurd h (htake u)
    · obtain ⟨rfl, -⟩ := Prod.mk.inj h
      exact buffer_ne_of_flush hflush

/-- After a line that was written nothing waits. -/
theorem buffer_of_writeLine {line : String} (h : s.writeLine line = (t, none)) : t.buffer = "" := by
  unfold writeLine at h
  rcases hwrite : andThen (s.write line) (·.write "\n") with ⟨u, _ | other⟩ <;>
    rw [hwrite, andThen] at h
  · exact buffer_of_flush h
  · cases h

/-- A short line that the file refuses waits, or what came before it does. -/
theorem buffer_ne_of_writeLine {line : String} (hshort : line.utf8ByteSize < capacity)
    (h : s.writeLine line = (t, some cause)) : t.buffer ≠ "" := by
  unfold writeLine at h
  rcases hline : s.write line with ⟨u, _ | other⟩ <;> rw [hline, andThen] at h
  · rcases hend : u.write "\n" with ⟨v, _ | other⟩ <;> rw [hend, andThen] at h
    · exact buffer_ne_of_flush h
    · obtain ⟨rfl, -⟩ := Prod.mk.inj h
      exact buffer_ne_of_write (by decide) hend
  · obtain ⟨rfl, -⟩ := Prod.mk.inj h
    exact buffer_ne_of_write hshort hline

/-! ### What is refused again -/

/-- The file refuses all bytes. -/
def Refuses (s : LogStream) (cause : FileError) : Prop :=
  ∀ bytes, s.files.append s.loc bytes = .error cause

theorem refuses_of_flush (h : s.flush = (t, some cause)) : t.Refuses cause := by
  unfold flush at h
  split_ifs at h
  · cases h
  · split at h <;> cases h
    rename_i happend
    exact FileTree.append_of_refused happend

theorem refuses_of_take {text : String} (h : s.take text = (t, some cause)) : t.Refuses cause := by
  unfold take at h
  split_ifs at h
  · cases h
  · split at h <;> cases h
    rename_i happend
    exact FileTree.append_of_refused happend

/-- After an error nothing else is done. -/
theorem refuses_of_andThen {r : LogStream × Option FileError}
    {next : LogStream → LogStream × Option FileError} (h : andThen r next = (t, some cause))
    (hfirst : r = (t, some cause) → t.Refuses cause)
    (hnext : ∀ u, next u = (t, some cause) → t.Refuses cause) : t.Refuses cause := by
  obtain ⟨u, _ | other⟩ := r
  · exact hnext u h
  · exact hfirst h

theorem refuses_of_write {text : String} (h : s.write text = (t, some cause)) :
    t.Refuses cause := by
  unfold write at h
  split_ifs at h
  · exact refuses_of_take h
  · exact refuses_of_andThen h refuses_of_flush fun _ => refuses_of_take

/-- A file that refuses a part of a line refuses whatever is written to it next. -/
theorem refuses_of_writeLine {line : String} (h : s.writeLine line = (t, some cause)) :
    t.Refuses cause :=
  refuses_of_andThen h (fun hline => refuses_of_andThen hline refuses_of_write fun _ =>
    refuses_of_write) fun _ => refuses_of_flush

theorem flush_of_refuses (h : s.Refuses cause) (hbuffer : s.buffer ≠ "") :
    s.flush = (s, some cause) := by
  rw [flush, if_neg hbuffer, h]

/-! ### Where it is -/

theorem andThen_loc {r : LogStream × Option FileError}
    {next : LogStream → LogStream × Option FileError} (h : ∀ u, (next u).1.loc = u.loc) :
    (andThen r next).1.loc = r.1.loc := by
  obtain ⟨u, _ | other⟩ := r
  · exact h u
  · rfl

theorem flush_loc (s : LogStream) : s.flush.1.loc = s.loc := by
  unfold flush
  split_ifs
  · rfl
  · split <;> rfl

theorem take_loc (s : LogStream) (text : String) : (s.take text).1.loc = s.loc := by
  unfold take
  split_ifs
  · rfl
  · split <;> rfl

theorem write_loc (s : LogStream) (text : String) : (s.write text).1.loc = s.loc := by
  unfold write
  split_ifs
  · exact s.take_loc text
  · exact (andThen_loc fun u => u.take_loc text).trans s.flush_loc

theorem writeLine_loc (s : LogStream) (line : String) : (s.writeLine line).1.loc = s.loc :=
  (andThen_loc flush_loc).trans ((andThen_loc fun u => u.write_loc "\n").trans (s.write_loc line))

end LogStream

namespace Sink

/-- A file that takes a line has nothing left to refuse. -/
theorem writeLine_of_taken {loc : Location} {refused : Option (String × FileError)} {w : World}
    {line : String} (h : ((file loc refused).writeLine w line).2.2 = none) :
    ((file loc refused).writeLine w line).1 = .file loc none := by
  unfold writeLine at h ⊢
  dsimp only at h ⊢
  rcases hwrite : LogStream.writeLine ⟨w.files, loc, (refused.map Prod.fst).getD ""⟩ line with
    ⟨s, error⟩
  rw [hwrite] at h
  obtain rfl : error = none := h
  have hloc := LogStream.writeLine_loc ⟨w.files, loc, (refused.map Prod.fst).getD ""⟩ line
  rw [hwrite] at hloc
  dsimp only at hloc ⊢
  rw [ofStream, if_pos (LogStream.buffer_of_writeLine hwrite), hloc]

/-- A short line that is refused waits, and is refused again at the end. -/
theorem writeLine_of_close {sink : Sink} {w : World} {line : String}
    (hshort : line.utf8ByteSize < LogStream.capacity)
    (hclose : (sink.writeLine w line).1.close = none) : (sink.writeLine w line).2.2 = none := by
  cases sink with
  | file loc refused =>
    unfold writeLine at hclose ⊢
    dsimp only at hclose ⊢
    rcases hwrite : LogStream.writeLine ⟨w.files, loc, (refused.map Prod.fst).getD ""⟩ line with
      ⟨s, _ | cause⟩
    · rfl
    · rw [hwrite] at hclose
      dsimp only at hclose
      rw [ofStream, if_neg (LogStream.buffer_ne_of_writeLine hshort hwrite)] at hclose
      cases hclose
  | _ => rfl

/-- When a file is closed after a line, its buffer is handed over once more. What waits there is
refused again, and nothing is changed by it. -/
theorem flush_of_writeLine {sink : Sink} {w w' : World} {line : String} {loc : Location}
    {refused : Option (String × FileError)} {error : Option FileError}
    (h : sink.writeLine w line = (.file loc refused, w', error)) :
    LogStream.flush ⟨w'.files, loc, (refused.map Prod.fst).getD ""⟩ =
      (⟨w'.files, loc, (refused.map Prod.fst).getD ""⟩, (file loc refused).close) := by
  cases sink with
  | file loc₀ refused₀ =>
    unfold writeLine at h
    dsimp only at h
    rcases hwrite : LogStream.writeLine ⟨w.files, loc₀, (refused₀.map Prod.fst).getD ""⟩ line with
      ⟨s, error'⟩
    rw [hwrite] at h
    obtain ⟨hsink, hworld⟩ := Prod.mk.inj h
    obtain ⟨rfl, rfl⟩ := Prod.mk.inj hworld
    obtain ⟨rfl, rfl⟩ := file.inj hsink
    by_cases hbuffer : s.buffer = ""
    · rw [if_pos hbuffer]
      rfl
    · cases error' with
      | none => exact absurd (LogStream.buffer_of_writeLine hwrite) hbuffer
      | some cause =>
        rw [if_neg hbuffer]
        exact LogStream.flush_of_refuses (LogStream.refuses_of_writeLine hwrite) hbuffer
  | _ => cases h

end Sink

end RealModeTrace
