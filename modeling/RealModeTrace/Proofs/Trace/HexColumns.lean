import RealModeTrace.Proofs.Text.HexRows
import RealModeTrace.Proofs.Text.Plain
import RealModeTrace.Proofs.Trace.BufferCalls

/-!
# Bytes as they are shown

A row of bytes can be read back, a column is a row with spaces up to its width, and a line buffer
holds as many characters of either as its capacity says.

* `clip_eq_take`: where characters have one byte each, what fits is counted in characters;
* `LineBuffer.TakesFirst`: a buffer holds the first characters of a text; `takesFirst_run`: it does
  after all calls that write a plain text;
* `length_hexColumn`: the width of a column;
* `ShowsBytes`: what is said of the row and of the columns of bytes; `bytes_shown`: it holds of all
  bytes.
-/

namespace RealModeTrace

open Text

/-! ### Plain texts in a buffer -/

theorem clip_eq_take {cs : List Char} (h : ∀ c ∈ cs, isPrintable c = true) (n : Nat) :
    clip n cs = cs.take n := by
  induction cs generalizing n with
  | nil => rw [clip, List.take_nil]
  | cons c cs ih =>
    have hc : c.utf8Size = 1 := utf8Size_of_isPrintable (h c List.mem_cons_self)
    have hcs := ih fun d hd => h d (List.mem_cons_of_mem c hd)
    rw [clip, hc]
    cases n with
    | zero => rfl
    | succ n => rw [if_pos (Nat.le_add_left 1 n), List.take_succ_cons, ← hcs, Nat.add_sub_cancel]

namespace LineBuffer

/-- The buffer holds the first characters of a text, as many as its capacity says, and knows whether
that is all. -/
structure TakesFirst (capacity : Nat) (s : String) (b : LineBuffer) : Prop where
  text_eq : b.text = String.ofList (s.toList.take (min capacity s.length))
  truncated_iff : b.truncated = true ↔ capacity < s.length

theorem Keeps.takesFirst {capacity : Nat} {s : String} {b : LineBuffer} (h : Keeps capacity s b)
    (hs : ∀ c ∈ s.toList, isPrintable c = true) : TakesFirst capacity s b where
  text_eq := by
    rw [h.longest.eq (longestPrefix_clip capacity s), clip_eq_take hs, ← String.length_toList,
      List.take_eq_take_min]
  truncated_iff := by
    rw [h.truncated_iff, ← byteLength_toList, byteLength_eq_utf8Len, utf8Len_of_isPrintable hs,
      String.length_toList]

/-- However a plain text is cut into calls, the buffer holds its first characters. -/
theorem takesFirst_run (start : Nat) {s : String} (hs : ∀ c ∈ s.toList, isPrintable c = true)
    {calls : List Call} (h : written calls = s) :
    TakesFirst (capacityAfter start calls) s ((ofCapacity start).run calls) := by
  subst h
  exact (keeps_run start calls).takesFirst hs

end LineBuffer

/-! ### Rows and columns -/

section Columns

variable (bs : List UInt8) (width : Nat)

theorem isPrintable_of_mem_hexBytes : ∀ c ∈ (hexBytes bs).toList, isPrintable c = true :=
  (plain_hexPieces bs).printable

theorem isPrintable_of_mem_hexColumn : ∀ c ∈ (hexColumn width bs).toList, isPrintable c = true := by
  intro c hc
  rw [hexColumn, String.toList_append, String.toList_ofList, List.mem_append] at hc
  rcases hc with hrow | hspace
  · exact isPrintable_of_mem_hexBytes bs c hrow
  · obtain rfl := List.eq_of_mem_replicate hspace
    decide

/-- A column is as wide as asked for, or as its row. -/
theorem length_hexColumn : (hexColumn width bs).length = max width (hexBytes bs).length := by
  rw [hexColumn, String.length_append, String.length_ofList, List.length_replicate,
    length_hexBytes]
  omega

end Columns

/-- What is said of the row of bytes, and of their columns. -/
structure ShowsBytes (bs : List UInt8) : Prop where
  /-- The digits are these. -/
  digits_eq : (List.range 16).map hexDigit = "0123456789ABCDEF".toList
  /-- The row has the digits of each byte, with one space between two bytes and none at the ends. -/
  row_eq : (hexBytes bs).toList =
    [' '].intercalate (bs.map fun b => [hexDigit (b.toNat / 16), hexDigit (b.toNat % 16)])
  /-- It is the one text that is read as these bytes. -/
  read_iff : ∀ s : String, readHexRow? s.toList = some bs ↔ s = hexBytes bs
  /-- No other bytes have this row. -/
  row_injective : ∀ other, hexBytes other = hexBytes bs → other = bs
  length_row : (hexBytes bs).length = 3 * bs.length - 1
  /-- A column is the row and spaces after it. -/
  column_eq : ∀ width, ∃ spaces,
    hexColumn width bs = hexBytes bs ++ String.ofList (List.replicate spaces ' ')
  length_column : ∀ width, (hexColumn width bs).length = max width (hexBytes bs).length
  /-- A buffer holds the first characters of the row, written in the pieces it is made of, … -/
  pieces_kept : ∀ capacity, LineBuffer.TakesFirst capacity (hexBytes bs)
    ((LineBuffer.ofCapacity capacity).writeAll (hexPieces bs))
  /-- … or in any calls, … -/
  row_kept : ∀ start calls, LineBuffer.written calls = hexBytes bs →
    LineBuffer.TakesFirst (LineBuffer.capacityAfter start calls) (hexBytes bs)
      ((LineBuffer.ofCapacity start).run calls)
  /-- … and of a column likewise. -/
  column_kept : ∀ width start calls, LineBuffer.written calls = hexColumn width bs →
    LineBuffer.TakesFirst (LineBuffer.capacityAfter start calls) (hexColumn width bs)
      ((LineBuffer.ofCapacity start).run calls)

/-- **Bytes are shown so that they can be read.** A row has two upper-case digits for each byte,
single spaces between the bytes and none at its ends; it is read as these bytes, and no other text
is. A column is the row with spaces up to the width asked for, and the row in it is never cut.
A line buffer holds the first characters of either, as many as its capacity says, and is truncated
exactly if there are more. -/
theorem bytes_shown (bs : List UInt8) : ShowsBytes bs where
  digits_eq := by decide
  row_eq := by
    rw [toList_hexBytes]
    simp only [hexByte, String.toList_ofList]
  read_iff _ := readHexRow?_eq_some_iff
  row_injective _ := hexBytes_injective
  length_row := by rw [length_hexBytes, Nat.mul_comm]
  column_eq _ := ⟨_, rfl⟩
  length_column := length_hexColumn bs
  pieces_kept capacity := by
    have h := LineBuffer.takesFirst_run capacity (isPrintable_of_mem_hexBytes bs)
      (LineBuffer.written_texts (hexPieces bs))
    rwa [LineBuffer.run_texts, LineBuffer.capacityAfter_texts] at h
  row_kept start _ := LineBuffer.takesFirst_run start (isPrintable_of_mem_hexBytes bs)
  column_kept width start _ :=
    LineBuffer.takesFirst_run start (isPrintable_of_mem_hexColumn bs width)

end RealModeTrace
