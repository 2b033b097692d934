import RealModeTrace.Proofs.Trace.LineBuffer
import Mathlib.Data.Nat.Find

/-!
# Calls of a line buffer

A line buffer is written to and reset in any order. It always holds the longest prefix that fits of
what was written since it was last reset, however that was cut into calls, and it is truncated
exactly if that is not all.

* `isBoundary`, `cutBefore`: where a text can be cut, and the last such place up to a byte, looked
  for backwards; `firstBytes?_cutBefore`: the search ends between two characters, at the end of the
  longest prefix that fits;
* `LineBuffer.writeCut?`: writing with that search; `LineBuffer.writeCut?_eq`: it is `write`, and it
  never cuts a character;
* `LineBuffer.run`: a buffer after calls; `LineBuffer.keeps_run`: what it keeps of the text that was
  written since the last reset;
* `LineBuffer.KeepsPrefix`: what is said of a buffer after calls; `LineBuffer.prefix_kept`: it holds
  after all calls.
-/

namespace RealModeTrace

/-! ### Cutting a text -/

/-- A text can be cut before this byte: it is the first of a character, or the end of the text. -/
def isBoundary (s : String) (n : Nat) : Bool :=
  String.Pos.Raw.isValid s ⟨n⟩

/-- The last place up to a byte at which a text can be cut, looked for backwards. -/
def cutBefore (s : String) (n : Nat) : Nat :=
  Nat.findGreatest (fun k => isBoundary s k = true) n

/-- The text of the first bytes, if they are whole characters. -/
def firstBytes? (s : String) (n : Nat) : Option String :=
  Text.ofUtf8? (s.toByteArray.extract 0 n)

section Cut

variable {s : String} {n k : Nat}

theorem isBoundary_iff : isBoundary s n = true ↔ ∃ us, us <+: s.toList ∧ byteLength us = n := by
  have hsize (us : List Char) : (String.ofList us).utf8ByteSize = byteLength us := by
    rw [String.utf8ByteSize_ofList, byteLength_eq_utf8Len]
  rw [isBoundary, String.Pos.Raw.isValid_eq_true_iff,
    String.Pos.Raw.isValid_iff_exists_take_toList]
  simp only [hsize]
  constructor
  · rintro ⟨i, hi⟩
    exact ⟨s.toList.take i, List.take_prefix i _, hi.symm⟩
  · rintro ⟨us, hus, hn⟩
    exact ⟨us.length, by rw [← List.prefix_iff_eq_take.1 hus, hn]⟩

theorem isBoundary_zero (s : String) : isBoundary s 0 = true :=
  isBoundary_iff.2 ⟨[], List.nil_prefix, rfl⟩

theorem cutBefore_le : cutBefore s n ≤ n :=
  Nat.findGreatest_le n

/-- The search ends where the text can be cut: at its start if nowhere before. -/
theorem isBoundary_cutBefore : isBoundary s (cutBefore s n) = true :=
  Nat.findGreatest_spec (P := fun k => isBoundary s k = true) (Nat.zero_le n) (isBoundary_zero s)

theorem le_cutBefore (hk : k ≤ n) (h : isBoundary s k = true) : k ≤ cutBefore s n :=
  Nat.le_findGreatest hk h

/-- The search ends where the longest prefix that fits ends. -/
theorem cutBefore_eq (s : String) (n : Nat) : cutBefore s n = byteLength (clip n s.toList) := by
  obtain ⟨us, hus, hsize⟩ := isBoundary_iff.1 (isBoundary_cutBefore (s := s) (n := n))
  refine Nat.le_antisymm ?_ ?_
  · obtain ⟨rest, hrest⟩ := isPrefix_clip n s.toList hus (hsize ▸ cutBefore_le)
    rw [← hrest, byteLength_append, hsize]
    exact Nat.le_add_right _ _
  · exact le_cutBefore (byteLength_clip_le n s.toList)
      (isBoundary_iff.2 ⟨_, clip_isPrefix n s.toList, rfl⟩)

theorem firstBytes?_of_prefix {us : List Char} (h : us <+: s.toList) :
    firstBytes? s (byteLength us) = some (String.ofList us) := by
  obtain ⟨rest, hrest⟩ := h
  have hs : s = String.ofList us ++ String.ofList rest := by
    rw [← String.ofList_append, hrest, String.ofList_toList]
  have hsize : byteLength us = (String.ofList us).toByteArray.size := by
    rw [← String.utf8ByteSize, String.utf8ByteSize_ofList, byteLength_eq_utf8Len]
  have hbytes : s.toByteArray.extract 0 (byteLength us) = (String.ofList us).toByteArray := by
    rw [hs, String.toByteArray_append, hsize, ByteArray.extract_append_eq_left rfl]
  rw [firstBytes?, hbytes, Text.ofUtf8?, String.fromUTF8?, dif_pos (String.isValidUTF8 _)]
  rfl

/-- The bytes before the cut are the longest prefix that fits. -/
theorem firstBytes?_cutBefore (s : String) (n : Nat) :
    firstBytes? s (cutBefore s n) = some (String.ofList (clip n s.toList)) := by
  rw [cutBefore_eq]
  exact firstBytes?_of_prefix (clip_isPrefix n s.toList)

end Cut

namespace LineBuffer

/-- Append a text, or the part of it before the last cut that fits. Nothing comes of it if that cut
is within a character. -/
def writeCut? (b : LineBuffer) (s : String) : Option LineBuffer :=
  if b.truncated then some b
  else if s.utf8ByteSize ≤ b.remaining then some { b with text := b.text ++ s }
  else (firstBytes? s (cutBefore s b.remaining)).map fun part =>
    { b with text := b.text ++ part, truncated := true }

/-- To search for the cut backwards is to clip. -/
theorem writeCut?_eq (b : LineBuffer) (s : String) : b.writeCut? s = some (b.write s) := by
  unfold writeCut? write
  rw [firstBytes?_cutBefore]
  split_ifs <;> rfl

/-! ### Calls -/

/-- A call of a line buffer. -/
inductive Call
  | text (s : String)
  | char (c : Char)
  | reset (capacity : Nat)

/-- A buffer after a call. -/
def apply (b : LineBuffer) : Call → LineBuffer
  | .text s => b.write s
  | .char c => b.write (String.singleton c)
  | .reset capacity => b.reset capacity

/-- A buffer after calls. -/
def run (b : LineBuffer) (calls : List Call) : LineBuffer :=
  calls.foldl apply b

/-- What was written since the last reset, after one more call. -/
def Call.extend (written : String) : Call → String
  | .text s => written ++ s
  | .char c => written.push c
  | .reset _ => ""

/-- The capacity that was set last, after one more call. -/
def Call.capacityFrom (capacity : Nat) : Call → Nat
  | .reset other => other
  | _ => capacity

/-- What calls have written since the last reset. -/
def written (calls : List Call) : String :=
  calls.foldl Call.extend ""

/-- The capacity of a buffer after calls. -/
def capacityAfter (capacity : Nat) (calls : List Call) : Nat :=
  calls.foldl Call.capacityFrom capacity

section Texts

variable (pieces : List String)

/-- Pieces written one after the other are calls, … -/
theorem run_texts (b : LineBuffer) : b.run (pieces.map .text) = b.writeAll pieces :=
  List.foldl_map

/-- … which write all of the pieces, … -/
theorem written_texts : written (pieces.map .text) = String.join pieces := by
  rw [written, List.foldl_map, String.join]
  rfl

/-- … and set no capacity. -/
theorem capacityAfter_texts (capacity : Nat) :
    capacityAfter capacity (pieces.map .text) = capacity := by
  rw [capacityAfter, List.foldl_map]
  exact List.foldl_fixed pieces

end Texts

theorem Holds.apply {b : LineBuffer} {s : String} (h : b.Holds s.toList) (call : Call) :
    (b.apply call).Holds (call.extend s).toList ∧
      (b.apply call).capacity = call.capacityFrom b.capacity := by
  cases call with
  | text t =>
    rw [Call.extend, String.toList_append]
    exact ⟨h.write t, b.write_capacity t⟩
  | char c =>
    rw [Call.extend, String.toList_push, ← String.toList_singleton]
    exact ⟨h.write (String.singleton c), b.write_capacity (String.singleton c)⟩
  | reset capacity => exact ⟨b.holds_reset capacity, rfl⟩

theorem Holds.run {b : LineBuffer} {s : String} (h : b.Holds s.toList) (calls : List Call) :
    (b.run calls).Holds (calls.foldl Call.extend s).toList ∧
      (b.run calls).capacity = capacityAfter b.capacity calls := by
  induction calls generalizing b s with
  | nil => exact ⟨h, rfl⟩
  | cons call calls ih =>
    obtain ⟨hholds, hcapacity⟩ := h.apply call
    obtain ⟨hrest, hlast⟩ := ih hholds
    exact ⟨hrest, hlast.trans (congrArg (capacityAfter · calls) hcapacity)⟩

/-- A buffer holds of a text what fits into its capacity. -/
structure Keeps (capacity : Nat) (s : String) (b : LineBuffer) : Prop where
  capacity_eq : b.capacity = capacity
  longest : LongestPrefix capacity s b.text
  truncated_iff : b.truncated = true ↔ capacity < s.utf8ByteSize
  size_le : b.size ≤ capacity

theorem Holds.keeps {b : LineBuffer} {s : String} (h : b.Holds s.toList) :
    Keeps b.capacity s b where
  capacity_eq := rfl
  longest := by
    have htext : b.text = String.ofList (clip b.capacity s.toList) := by
      rw [← h.text_eq, String.ofList_toList]
    rw [htext]
    exact longestPrefix_clip b.capacity s
  truncated_iff := by rw [h.truncated_iff, byteLength_toList]
  size_le := by
    rw [size, ← byteLength_toList, h.text_eq]
    exact byteLength_clip_le b.capacity s.toList

/-- A capacity and a text leave no choice. -/
theorem Keeps.eq {capacity : Nat} {s : String} {b other : LineBuffer} (h : Keeps capacity s b)
    (hother : Keeps capacity s other) : b = other := by
  have htext : b.text = other.text := h.longest.eq hother.longest
  have hcapacity : b.capacity = other.capacity := h.capacity_eq.trans hother.capacity_eq.symm
  have htruncated : b.truncated = other.truncated :=
    Bool.eq_iff_iff.2 (h.truncated_iff.trans hother.truncated_iff.symm)
  cases b
  cases other
  exact congr (congr (congrArg LineBuffer.mk htext) hcapacity) htruncated

/-- A buffer after calls keeps what fits of the text that was written since the last reset. -/
theorem keeps_run (start : Nat) (calls : List Call) :
    Keeps (capacityAfter start calls) (written calls) ((ofCapacity start).run calls) := by
  have hempty : (ofCapacity start).Holds "".toList := holds_reset default start
  obtain ⟨hholds, hcapacity⟩ := hempty.run calls
  exact hcapacity ▸ hholds.keeps

/-- What is said of a buffer after calls. -/
structure KeepsPrefix (start : Nat) (calls : List Call) : Prop where
  /-- It keeps the longest prefix that fits of what was written since the last reset, and knows
  whether that is all. -/
  kept : Keeps (capacityAfter start calls) (written calls) ((ofCapacity start).run calls)
  /-- Nothing else counts: the text may be cut into calls in any way. -/
  joined : ∀ start' calls', capacityAfter start' calls' = capacityAfter start calls →
    written calls' = written calls → (ofCapacity start').run calls' = (ofCapacity start).run calls
  /-- After a reset nothing is left of a buffer, whatever it was. -/
  fresh : ∀ (b : LineBuffer) capacity,
    b.run (.reset capacity :: calls) = (ofCapacity capacity).run calls
  /-- Each text is cut where the search backwards ends, which is never within a character. -/
  searched : ∀ (b : LineBuffer) s, b.writeCut? s = some (b.write s)
  /-- The search ends at the last place in reach at which the text can be cut. -/
  last_cut : ∀ s n, cutBefore s n ≤ n ∧ isBoundary s (cutBefore s n) = true ∧
    ∀ k, k ≤ n → isBoundary s k = true → k ≤ cutBefore s n

/-- **A line buffer keeps a prefix.** After any calls a buffer holds the longest prefix, ending
between two characters, of what was written since the last reset that has at most as many bytes as
its capacity, and is truncated exactly if there was more. So it depends on the capacity and the text
as a whole alone, not on how the text was cut into calls, nor on what was there before the reset.
The search backwards for the place to cut at ends between two characters every time. -/
theorem prefix_kept (start : Nat) (calls : List Call) : KeepsPrefix start calls where
  kept := keeps_run start calls
  joined start' calls' hcapacity hwritten := by
    have hkeeps := keeps_run start' calls'
    rw [hcapacity, hwritten] at hkeeps
    exact hkeeps.eq (keeps_run start calls)
  fresh _ _ := rfl
  searched := writeCut?_eq
  last_cut _ _ := ⟨cutBefore_le, isBoundary_cutBefore, fun _ => le_cutBefore⟩

/-- A character of two bytes does not fit into the last byte, and what comes later is refused, even
if it would fit. -/
example : (ofCapacity 5).run [.text "ééé", .char 'x'] = ⟨"éé", 5, true⟩ := by
  decide

end LineBuffer

end RealModeTrace
