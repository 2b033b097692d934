import RealModeTrace.Proofs.Storage.LogStream
import RealModeTrace.Proofs.Trace.LineBuffer
import RealModeTrace.Trace.Writer

/-!
# Lines delivered to a sink

The lines that a writer hands to its sink are the lines of its records in order, whatever its line
buffer held before.

* `Delivery`: a sink, the world it writes to, and how many lines it took;
* `Delivery.push`, `Delivery.pushAll`: one line more, and several;
* `Delivery.InFile.pushAll`: a stored file takes every line and holds them all, each with its end;
* `Delivery.NeverFails`: the sink takes whatever is written to it; captures, the console and stored
  files do;
* `Writer.delivery_emitAll`: a writer delivers the lines of its records.
-/

namespace RealModeTrace

/-- A sink and the world after some lines, and how many of them the sink took. -/
structure Delivery where
  sink : Sink
  world : World
  taken : Nat

namespace Delivery

/-- One line more. -/
def push (d : Delivery) (line : String) : Delivery :=
  let (sink, world, error) := d.sink.writeLine d.world line
  ⟨sink, world, if error.isNone then d.taken + 1 else d.taken⟩

/-- Several lines more. -/
def pushAll (d : Delivery) (lines : List String) : Delivery :=
  lines.foldl push d

@[simp] theorem pushAll_nil (d : Delivery) : d.pushAll [] = d := rfl

theorem pushAll_append (d : Delivery) (lines more : List String) :
    d.pushAll (lines ++ more) = (d.pushAll lines).pushAll more :=
  List.foldl_append

/-- The sink is an open file that is stored and holds a text, and has nothing left to refuse. -/
structure InFile (d : Delivery) (loc : Location) (text : String) : Prop where
  sink_eq : d.sink = .file loc none
  file_eq : d.world.files.node? loc = some (.file (Text.utf8 text))

/-- A stored file takes a line. -/
theorem InFile.push {d : Delivery} {loc : Location} {text : String} (h : d.InFile loc text)
    (line : String) :
    (d.push line).InFile loc (text ++ (line ++ "\n")) ∧ (d.push line).taken = d.taken + 1 := by
  obtain ⟨hsink, hfile⟩ := h
  have hholds : LogStream.Holds ⟨d.world.files, loc, ""⟩ (Text.utf8 text) :=
    ⟨⟨_, hfile, ByteArray.append_empty.symm⟩⟩
  obtain ⟨s, hstream, hholds, hempty, hloc⟩ := hholds.writeLine line
  have hwrite : d.sink.writeLine d.world line =
      (.file loc none, { d.world with files := s.files }, none) := by
    rw [hsink, Sink.writeLine]
    dsimp only [Option.map_none, Option.getD_none]
    rw [hstream]
    dsimp only
    rw [Sink.ofStream, if_pos hempty, hloc]
  unfold Delivery.push
  rw [hwrite]
  refine ⟨⟨rfl, ?_⟩, rfl⟩
  have hnode := hholds.file_eq hempty
  rw [hloc] at hnode
  rw [Text.utf8_append]
  exact hnode

/-- A stored file takes every line. -/
theorem InFile.pushAll {d : Delivery} {loc : Location} {text : String} (h : d.InFile loc text)
    (lines : List String) :
    (d.pushAll lines).InFile loc (text ++ Text.unlines lines) ∧
      (d.pushAll lines).taken = d.taken + lines.length := by
  induction lines generalizing d text with
  | nil =>
    rw [pushAll_nil, Text.unlines_nil, String.append_empty]
    exact ⟨h, rfl⟩
  | cons line lines ih =>
    obtain ⟨hpush, htaken⟩ := h.push line
    obtain ⟨hall, hcount⟩ := ih hpush
    rw [Text.unlines_cons, ← String.append_assoc, List.length_cons]
    exact ⟨hall, hcount.trans (by omega)⟩

/-! ### Sinks that take every line -/

theorem isNone_of_taken {d : Delivery} {line : String} (h : (d.push line).taken = d.taken + 1) :
    (d.sink.writeLine d.world line).2.2 = none := by
  unfold push at h
  rcases hwrite : d.sink.writeLine d.world line with ⟨sink, world, _ | cause⟩
  · rfl
  · rw [hwrite] at h
    exact absurd h (Nat.ne_of_lt (Nat.lt_succ_self _))

/-- A sink that has nothing left to refuse and takes a line stays as it is. -/
theorem push_of_taken {d : Delivery} {line : String} (hclose : d.sink.close = none)
    (h : (d.push line).taken = d.taken + 1) : (d.push line).sink = d.sink := by
  have hnone := isNone_of_taken h
  obtain ⟨sink, world, taken⟩ := d
  cases sink with
  | file loc refused =>
    obtain rfl : refused = none := Option.map_eq_none_iff.1 hclose
    exact Sink.writeLine_of_taken hnone
  | _ => rfl

theorem taken_le_push (d : Delivery) (line : String) : d.taken ≤ (d.push line).taken := by
  unfold push
  dsimp only
  split_ifs <;> omega

theorem taken_le_pushAll (d : Delivery) (lines : List String) :
    d.taken ≤ (d.pushAll lines).taken := by
  induction lines generalizing d with
  | nil => exact Nat.le_refl _
  | cons line lines ih => exact Nat.le_trans (d.taken_le_push line) (ih (d.push line))

/-- Whatever lines are written, the sink takes them all, and it can be closed after them. -/
structure NeverFails (d : Delivery) : Prop where
  taken_eq : ∀ lines, (d.pushAll lines).taken = d.taken + lines.length
  close_eq : ∀ lines, (d.pushAll lines).sink.close = none

theorem NeverFails.pushAll {d : Delivery} (h : d.NeverFails) (lines : List String) :
    (d.pushAll lines).NeverFails where
  taken_eq more := by
    rw [← pushAll_append, h.taken_eq, h.taken_eq, List.length_append, Nat.add_assoc]
  close_eq more := by rw [← pushAll_append, h.close_eq]

/-- A sink that takes every line stays as it is. -/
theorem NeverFails.sink_eq {d : Delivery} (h : d.NeverFails) (lines : List String) :
    (d.pushAll lines).sink = d.sink := by
  induction lines generalizing d with
  | nil => rfl
  | cons line lines ih =>
    have hpush : (d.push line).sink = d.sink := push_of_taken (h.close_eq []) (h.taken_eq [line])
    exact (ih (h.pushAll [line])).trans hpush

/-- A sink that takes every line takes the next one. -/
theorem NeverFails.writeLine_eq {d : Delivery} (h : d.NeverFails) (line : String) :
    ∃ world, d.sink.writeLine d.world line = (d.sink, world, none) := by
  have hsink : (d.push line).sink = d.sink := h.sink_eq [line]
  have hnone : (d.sink.writeLine d.world line).2.2 = none := isNone_of_taken (h.taken_eq [line])
  exact ⟨_, Prod.ext hsink (Prod.ext rfl hnone)⟩

/-- A capture takes every line, and keeps them in order. -/
theorem pushAll_capture (world : World) (taken : Nat) (lines : List String) :
    (⟨.capture, world, taken⟩ : Delivery).pushAll lines =
      ⟨.capture, { world with captured := world.captured ++ lines.toArray },
        taken + lines.length⟩ := by
  induction lines generalizing world taken with
  | nil => simp
  | cons line lines ih =>
    show (Delivery.push ⟨.capture, world, taken⟩ line).pushAll lines = _
    rw [push]
    simp only [Sink.writeLine, Option.isNone_none, if_true]
    rw [ih]
    simp [Nat.add_assoc, Nat.add_comm 1]

/-- The console takes every line. -/
theorem pushAll_console (world : World) (taken : Nat) (lines : List String) :
    (⟨.console, world, taken⟩ : Delivery).pushAll lines =
      ⟨.console, { world with console := world.console ++ lines.toArray },
        taken + lines.length⟩ := by
  induction lines generalizing world taken with
  | nil => simp
  | cons line lines ih =>
    show (Delivery.push ⟨.console, world, taken⟩ line).pushAll lines = _
    rw [push]
    simp only [Sink.writeLine, Option.isNone_none, if_true]
    rw [ih]
    simp [Nat.add_assoc, Nat.add_comm 1]

theorem neverFails_capture (world : World) (taken : Nat) :
    (⟨.capture, world, taken⟩ : Delivery).NeverFails where
  taken_eq lines := by rw [pushAll_capture]
  close_eq lines := by rw [pushAll_capture]; rfl

theorem neverFails_console (world : World) (taken : Nat) :
    (⟨.console, world, taken⟩ : Delivery).NeverFails where
  taken_eq lines := by rw [pushAll_console]
  close_eq lines := by rw [pushAll_console]; rfl

/-- A stored file never fails. -/
theorem InFile.neverFails {d : Delivery} {loc : Location} {text : String} (h : d.InFile loc text) :
    d.NeverFails where
  taken_eq lines := (h.pushAll lines).2
  close_eq lines := by
    rw [(h.pushAll lines).1.sink_eq]
    rfl

end Delivery

namespace Writer

/-- What a writer delivered to its sink. -/
def delivery (w : Writer) (world : World) : Delivery :=
  ⟨w.sink, world, w.linesWritten⟩

theorem delivery_emit (w : Writer) (world : World) (r : Record) :
    (w.emit world r).1.delivery (w.emit world r).2 = (w.delivery world).push r.text := by
  have htext : (w.line.render r.capacity r.pieces).text = r.text := r.render_eq_text w.line rfl
  unfold emit writePieces Delivery.push delivery
  simp only [htext]
  rcases w.sink.writeLine world r.text with ⟨sink, world', _ | error⟩ <;> rfl

/-- The lines of records are delivered in order. -/
theorem delivery_emitAll (w : Writer) (world : World) (records : List Record) :
    (w.emitAll world records).1.delivery (w.emitAll world records).2 =
      (w.delivery world).pushAll (records.map Record.text) := by
  induction records generalizing w world with
  | nil => rfl
  | cons r records ih =>
    rw [emitAll_cons, ih, delivery_emit]
    rfl

end Writer

end RealModeTrace
