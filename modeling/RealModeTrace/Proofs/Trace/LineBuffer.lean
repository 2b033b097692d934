import RealModeTrace.Trace.Record
import Mathlib.Data.String.Basic

/-!
# Lines cut to their capacity

The line buffer holds the longest prefix that fits of all that was written to it, however the
writing was cut into pieces and whatever the buffer held before it was reset.

* `LongestPrefix`: the longest prefix of a text that has at most so many bytes;
* `clip_append`: what is clipped from two texts in a row;
* `LineBuffer.Holds`: a buffer holds what fits of some characters and knows whether that is all;
  `LineBuffer.Holds.write` is one step of it;
* `LineBuffer.render_text`: the text of a line depends on the whole of its pieces and on nothing
  else;
* `Record.longestPrefix_text`: the line of a record is the longest prefix of the whole line that
  fits.
-/

namespace RealModeTrace

/-! ### Byte lengths -/

theorem byteLength_eq_utf8Len (cs : List Char) : byteLength cs = String.utf8Len cs := by
  induction cs with
  | nil => rfl
  | cons c cs ih => rw [byteLength, ih, String.utf8Len_cons, Nat.add_comm]

@[simp] theorem byteLength_toList (s : String) : byteLength s.toList = s.utf8ByteSize := by
  rw [byteLength_eq_utf8Len, String.utf8Len_toList]

@[simp] theorem byteLength_append (cs ds : List Char) :
    byteLength (cs ++ ds) = byteLength cs + byteLength ds := by
  simp only [byteLength_eq_utf8Len, String.utf8Len_append]

/-! ### Clipping -/

section Clip

variable (n : Nat) (cs ds : List Char)

theorem clip_isPrefix : clip n cs <+: cs := by
  induction cs generalizing n with
  | nil => exact List.nil_prefix
  | cons c cs ih =>
    unfold clip
    split_ifs
    · exact List.cons_prefix_cons.2 ⟨rfl, ih _⟩
    · exact List.nil_prefix

theorem byteLength_clip_le : byteLength (clip n cs) ≤ n := by
  induction cs generalizing n with
  | nil => exact Nat.zero_le n
  | cons c cs ih =>
    unfold clip
    split_ifs with hc
    · have := ih (n - c.utf8Size)
      simp only [byteLength]
      omega
    · exact Nat.zero_le n

/-- No longer prefix fits. -/
theorem isPrefix_clip {us : List Char} (hp : us <+: cs) (hn : byteLength us ≤ n) :
    us <+: clip n cs := by
  induction cs generalizing n us with
  | nil => rwa [List.prefix_nil.1 hp] at *
  | cons c cs ih =>
    cases us with
    | nil => exact List.nil_prefix
    | cons u us =>
      obtain ⟨rfl, htp⟩ := List.cons_prefix_cons.1 hp
      rw [byteLength] at hn
      have hfits : u.utf8Size ≤ n := by omega
      have htail : byteLength us ≤ n - u.utf8Size := by omega
      rw [clip, if_pos hfits]
      exact List.cons_prefix_cons.2 ⟨rfl, ih _ htp htail⟩

theorem clip_eq_self (h : byteLength cs ≤ n) : clip n cs = cs :=
  (clip_isPrefix n cs).eq_of_length_le (isPrefix_clip n cs (List.prefix_refl cs) h).length_le

/-- What is clipped from two texts in a row. -/
theorem clip_append : clip n (cs ++ ds) =
    if byteLength cs ≤ n then cs ++ clip (n - byteLength cs) ds else clip n cs := by
  induction cs generalizing n with
  | nil => simp [byteLength]
  | cons c cs ih =>
    rw [List.cons_append, clip, clip, byteLength]
    by_cases hc : c.utf8Size ≤ n
    · rw [if_pos hc, if_pos hc, ih]
      by_cases hcs : byteLength cs ≤ n - c.utf8Size
      · rw [if_pos hcs, if_pos (by omega), Nat.sub_sub]
        rfl
      · rw [if_neg hcs, if_neg (by omega)]
    · rw [if_neg hc, if_neg hc, if_neg (by omega)]

end Clip

/-- The text `t` is the longest prefix of `s` that ends between two characters and has at most `n`
bytes. -/
structure LongestPrefix (n : Nat) (s t : String) : Prop where
  initial : t.toList <+: s.toList
  fits : t.utf8ByteSize ≤ n
  longest : ∀ u : String, u.toList <+: s.toList → u.utf8ByteSize ≤ n → u.toList <+: t.toList

theorem longestPrefix_clip (n : Nat) (s : String) :
    LongestPrefix n s (String.ofList (clip n s.toList)) where
  initial := by
    rw [String.toList_ofList]
    exact clip_isPrefix n s.toList
  fits := by
    rw [← byteLength_toList, String.toList_ofList]
    exact byteLength_clip_le n s.toList
  longest u hp hn := by
    rw [String.toList_ofList]
    exact isPrefix_clip n s.toList hp (by rwa [byteLength_toList])

/-- There is one longest prefix. -/
theorem LongestPrefix.eq {n : Nat} {s t u : String} (ht : LongestPrefix n s t)
    (hu : LongestPrefix n s u) : t = u :=
  String.toList_inj.1 <| (hu.longest t ht.initial ht.fits).eq_of_length_le
    (ht.longest u hu.initial hu.fits).length_le

/-! ### The line buffer -/

namespace LineBuffer

/-- The buffer holds what fits of some characters, and knows whether that is all. -/
structure Holds (b : LineBuffer) (cs : List Char) : Prop where
  text_eq : b.text.toList = clip b.capacity cs
  truncated_iff : b.truncated = true ↔ b.capacity < byteLength cs

theorem holds_reset (b : LineBuffer) (capacity : Nat) : (b.reset capacity).Holds [] where
  text_eq := rfl
  truncated_iff := ⟨fun h => Bool.noConfusion h, fun h => absurd h (Nat.not_lt_zero _)⟩

@[simp] theorem write_capacity (b : LineBuffer) (s : String) :
    (b.write s).capacity = b.capacity := by
  unfold write
  split_ifs <;> rfl

/-- One more piece. -/
theorem Holds.write {b : LineBuffer} {cs : List Char} (h : b.Holds cs) (s : String) :
    (b.write s).Holds (cs ++ s.toList) := by
  have hsize : byteLength (cs ++ s.toList) = byteLength cs + s.utf8ByteSize := by simp
  unfold LineBuffer.write
  by_cases ht : b.truncated = true
  · -- nothing is taken any more
    have hlong := h.truncated_iff.1 ht
    rw [if_pos ht]
    refine ⟨?_, ?_⟩
    · rw [clip_append, if_neg (Nat.not_le_of_lt hlong)]
      exact h.text_eq
    · rw [ht, hsize]
      exact ⟨fun _ => by omega, fun _ => rfl⟩
  · have hfits : byteLength cs ≤ b.capacity :=
      Nat.le_of_not_lt fun hlong => ht (h.truncated_iff.2 hlong)
    have htext : b.text.toList = cs := h.text_eq.trans (clip_eq_self _ _ hfits)
    have hroom : b.remaining = b.capacity - byteLength cs := by
      rw [remaining, size, ← byteLength_toList, htext]
    rw [if_neg ht]
    split_ifs with hs
    · rw [hroom] at hs
      refine ⟨?_, ?_⟩
      · show (b.text ++ s).toList = clip b.capacity (cs ++ s.toList)
        rw [clip_eq_self _ _ (by omega), String.toList_append, htext]
      · show b.truncated = true ↔ b.capacity < byteLength (cs ++ s.toList)
        rw [hsize]
        exact ⟨fun hf => absurd hf ht, fun hf => by omega⟩
    · rw [hroom] at hs
      refine ⟨?_, ?_⟩
      · rw [clip_append, if_pos hfits, String.toList_append, String.toList_ofList, htext, hroom]
      · show true = true ↔ b.capacity < byteLength (cs ++ s.toList)
        rw [hsize]
        exact ⟨fun _ => by omega, fun _ => rfl⟩

theorem Holds.writeAll {b : LineBuffer} {cs : List Char} (h : b.Holds cs) (pieces : List String) :
    (b.writeAll pieces).Holds (cs ++ (String.join pieces).toList) ∧
      (b.writeAll pieces).capacity = b.capacity := by
  induction pieces generalizing b cs with
  | nil =>
    rw [writeAll_nil, String.join_nil, String.toList_empty, List.append_nil]
    exact ⟨h, rfl⟩
  | cons s pieces ih =>
    obtain ⟨hholds, hcapacity⟩ := ih (h.write s)
    rw [writeAll_cons, String.join_cons, String.toList_append, ← List.append_assoc]
    exact ⟨hholds, hcapacity.trans (b.write_capacity s)⟩

/-- The text of a new line: what fits of all its pieces together. -/
theorem render_text (b : LineBuffer) (capacity : Nat) (pieces : List String) :
    (b.render capacity pieces).text =
      String.ofList (clip capacity (String.join pieces).toList) := by
  obtain ⟨hholds, hcapacity⟩ := (b.holds_reset capacity).writeAll pieces
  have htext := hholds.text_eq
  rw [hcapacity, List.nil_append] at htext
  rw [← String.toList_inj, String.toList_ofList]
  exact htext

end LineBuffer

/-! ### The line of a record -/

namespace Record

theorem text_eq (r : Record) : r.text = String.ofList (clip r.capacity r.full.toList) :=
  LineBuffer.render_text ..

/-- However the whole line is cut into pieces, and whatever the buffer held, the line that is
written is the same. -/
theorem render_eq_text (b : LineBuffer) (r : Record) {pieces : List String}
    (h : String.join pieces = r.full) : (b.render r.capacity pieces).text = r.text := by
  rw [LineBuffer.render_text, text_eq, h]

theorem longestPrefix_text (r : Record) : LongestPrefix r.capacity r.full r.text := by
  rw [text_eq]
  exact longestPrefix_clip r.capacity r.full

theorem longestPrefix_iff (r : Record) (t : String) :
    LongestPrefix r.capacity r.full t ↔ t = r.text :=
  ⟨fun h => h.eq r.longestPrefix_text, fun h => h ▸ r.longestPrefix_text⟩

/-- A line that fits is written whole. -/
theorem text_eq_full {r : Record} (h : r.full.utf8ByteSize ≤ r.capacity) : r.text = r.full := by
  rw [text_eq, clip_eq_self _ _ (by rwa [byteLength_toList]), String.ofList_toList]

end Record

end RealModeTrace
