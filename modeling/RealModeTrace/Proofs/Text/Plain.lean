import RealModeTrace.HexBytes
import Mathlib.Data.String.Basic

/-!
# Plain texts

A plain text has printable ASCII characters only, so that its bytes are its characters and no line
ends in it. All that the tracer renders by itself is plain, and of a known greatest size.

* `Plain n s`: the text `s` is plain and of at most `n` bytes;
* `isPlain`, `plain_of_isPlain`: this decided on the bytes, for texts that are written out;
* `Plain.append`, `Plain.join`: sizes add up, over two texts and over a list of pieces;
* `plain_hexByte`, `plain_decimal` and the like: the numerals;
* `plain_hexPieces`, `plain_hexColumn`: rows of bytes.
-/

namespace RealModeTrace.Text

/-- A character from the space to the tilde. -/
def isPrintable (c : Char) : Bool :=
  32 ≤ c.toNat && c.toNat ≤ 126

theorem isPrintable_iff {c : Char} : isPrintable c = true ↔ 32 ≤ c.toNat ∧ c.toNat ≤ 126 := by
  simp [isPrintable]

theorem utf8Size_of_isPrintable {c : Char} (h : isPrintable c = true) : c.utf8Size = 1 := by
  have hc : c.toNat ≤ 126 := (isPrintable_iff.1 h).2
  refine Char.utf8Size_eq_one_iff.2 (UInt32.le_iff_toNat_le.2 ?_)
  exact Nat.le_trans hc (by decide)

/-- The text has printable characters only, and at most `n` bytes. -/
structure Plain (n : Nat) (s : String) : Prop where
  printable : ∀ c ∈ s.toList, isPrintable c = true
  size_le : s.utf8ByteSize ≤ n

/-- A text that is plain and of at most `n` bytes, told by its bytes. -/
def isPlain (n : Nat) (s : String) : Bool :=
  (s.toByteArray.data.toList.all fun b => 32 ≤ b && b ≤ 126) && s.utf8ByteSize ≤ n

/-- The first byte of a character is a printable one only if the character is. -/
theorem isPrintable_of_utf8EncodeChar {c : Char}
    (h : ∀ b ∈ String.utf8EncodeChar c, (32 ≤ b && b ≤ 126) = true) : isPrintable c = true := by
  have hb : ∀ b ∈ String.utf8EncodeChar c, 32 ≤ b.toNat ∧ b.toNat ≤ 126 := fun b hmem => by
    have := h b hmem
    rw [Bool.and_eq_true, decide_eq_true_iff, decide_eq_true_iff, UInt8.le_iff_toNat_le,
      UInt8.le_iff_toNat_le] at this
    exact this
  have hval : c.toNat = c.val.toNat := rfl
  rw [isPrintable_iff]
  simp only [String.utf8EncodeChar] at hb
  -- a character of more bytes begins with one beyond the printable ones
  split_ifs at hb
  all_goals
    have hfirst := hb _ List.mem_cons_self
    rw [UInt8.toNat_ofNat'] at hfirst
    omega

theorem plain_of_isPlain {n : Nat} {s : String} (h : isPlain n s = true) : Plain n s := by
  rw [isPlain, Bool.and_eq_true, decide_eq_true_iff] at h
  refine ⟨fun c hc => ?_, h.2⟩
  refine isPrintable_of_utf8EncodeChar fun b hb => List.all_eq_true.1 h.1 b ?_
  rw [← String.utf8Encode_toList, List.utf8Encode, List.data_toByteArray]
  exact List.mem_flatMap.2 ⟨c, hc, hb⟩

theorem plain_empty : Plain 0 "" where
  printable _ hc := absurd hc List.not_mem_nil
  size_le := Nat.le_refl 0

/-- Printable characters have one byte each. -/
theorem utf8Len_of_isPrintable {cs : List Char} (h : ∀ c ∈ cs, isPrintable c = true) :
    String.utf8Len cs = cs.length := by
  induction cs with
  | nil => rfl
  | cons c cs ih =>
    rw [String.utf8Len_cons, utf8Size_of_isPrintable (h c List.mem_cons_self), List.length_cons,
      ih fun d hd => h d (List.mem_cons_of_mem c hd)]

theorem plain_ofList {n : Nat} {cs : List Char} (h : ∀ c ∈ cs, isPrintable c = true)
    (hlength : cs.length ≤ n) : Plain n (String.ofList cs) where
  printable c hc := h c (by rwa [String.toList_ofList] at hc)
  size_le := by rwa [String.utf8ByteSize_ofList, utf8Len_of_isPrintable h]

namespace Plain

variable {j k n : Nat} {s t : String} {pieces rest : List String}

theorem mono (h : Plain j s) (hjk : j ≤ k) : Plain k s :=
  ⟨h.printable, Nat.le_trans h.size_le hjk⟩

theorem append (hs : Plain j s) (ht : Plain k t) : Plain (j + k) (s ++ t) where
  printable c hc := by
    rw [String.toList_append, List.mem_append] at hc
    exact hc.elim (hs.printable c) (ht.printable c)
  size_le := by
    rw [String.utf8ByteSize_append]
    exact Nat.add_le_add hs.size_le ht.size_le

/-- The greatest sizes of the pieces of a text add up. -/
theorem join {sizes : List Nat} (h : List.Forall₂ Plain sizes pieces) :
    Plain (sizes.foldr (· + ·) 0) (String.join pieces) := by
  induction h with
  | nil => exact plain_empty
  | cons hs _ ih =>
    rw [List.foldr_cons, String.join_cons]
    exact hs.append ih

theorem join_append (h : Plain j (String.join pieces)) (hrest : Plain k (String.join rest)) :
    Plain (j + k) (String.join (pieces ++ rest)) := by
  rw [String.join_append]
  exact h.append hrest

/-- No line ends within a plain text. -/
theorem newline_notMem (h : Plain n s) : '\n' ∉ s.toList := fun hmem =>
  absurd (h.printable _ hmem) (by decide)

end Plain

/-- No line ends within two texts in a row if none ends within either. -/
theorem newline_notMem_append {s t : String} (hs : '\n' ∉ s.toList) (ht : '\n' ∉ t.toList) :
    '\n' ∉ (s ++ t).toList := by
  rw [String.toList_append, List.mem_append, not_or]
  exact ⟨hs, ht⟩

theorem newline_notMem_join {pieces : List String} (h : ∀ piece ∈ pieces, '\n' ∉ piece.toList) :
    '\n' ∉ (String.join pieces).toList := by
  induction pieces with
  | nil => exact List.not_mem_nil
  | cons s pieces ih =>
    rw [String.join_cons]
    exact newline_notMem_append (h s List.mem_cons_self)
      (ih fun piece hp => h piece (List.mem_cons_of_mem s hp))

/-! ### Numerals -/

theorem isPrintable_hexDigit : ∀ n, n < 16 → isPrintable (hexDigit n) = true := by
  decide

theorem plain_hexByte (b : UInt8) : Plain 2 (hexByte b) := by
  have hb := b.toNat_lt
  refine plain_ofList (fun c hc => ?_) (Nat.le_refl 2)
  simp only [List.mem_cons, List.not_mem_nil, or_false] at hc
  rcases hc with rfl | rfl <;> exact isPrintable_hexDigit _ (by omega)

theorem plain_hexWord (w : UInt16) : Plain 4 (hexWord w) := by
  have hw := w.toNat_lt
  refine plain_ofList (fun c hc => ?_) (Nat.le_refl 4)
  simp only [List.mem_cons, List.not_mem_nil, or_false] at hc
  rcases hc with rfl | rfl | rfl | rfl <;> exact isPrintable_hexDigit _ (by omega)

theorem plain_hexShort (w : UInt16) : Plain 4 (hexShort w) := by
  unfold hexShort
  split_ifs with h2 h3
  · exact (plain_hexByte _).mono (by decide)
  · refine plain_ofList (fun c hc => ?_) (Nat.le_succ 3)
    simp only [List.mem_cons, List.not_mem_nil, or_false] at hc
    rcases hc with rfl | rfl | rfl <;> exact isPrintable_hexDigit _ (by omega)
  · exact plain_hexWord w

/-- A number in base ten is made of digits. -/
theorem isDecimal_of_mem_toDigits {n : Nat} {c : Char} (h : c ∈ Nat.toDigits 10 n) :
    isDecimal c = true :=
  Nat.isDigit_of_mem_toDigits (by decide) (Nat.le_refl 10) h

/-- So is a number with zeros in front. -/
theorem isDecimal_of_mem_leftpad {width n : Nat} {c : Char}
    (h : c ∈ (Nat.toDigits 10 n).leftpad width '0') : isDecimal c = true := by
  rcases List.mem_append.1 h with h | h
  · rw [(List.mem_replicate.1 h).2]
    rfl
  · exact isDecimal_of_mem_toDigits h

theorem isPrintable_of_isDecimal {c : Char} (h : isDecimal c = true) : isPrintable c = true := by
  rw [isDecimal, Bool.and_eq_true, decide_eq_true_iff, decide_eq_true_iff] at h
  have hlow : '0'.toNat ≤ c.toNat := h.1
  have hhigh : c.toNat ≤ '9'.toNat := h.2
  rw [isPrintable_iff]
  exact ⟨Nat.le_trans (by decide) hlow, Nat.le_trans hhigh (by decide)⟩

theorem length_toDigits_le {n k : Nat} (hk : 0 < k) (h : n < 10 ^ k) :
    (Nat.toDigits 10 n).length ≤ k :=
  (Nat.length_toDigits_le_iff (by decide) hk).2 h

theorem plain_decimal {n k : Nat} (hk : 0 < k) (h : n < 10 ^ k) : Plain k (decimal n) :=
  plain_ofList (fun _ hc => isPrintable_of_isDecimal (isDecimal_of_mem_toDigits hc))
    (length_toDigits_le hk h)

theorem plain_decimalPad {width n k : Nat} (hk : 0 < k) (hwidth : width ≤ k) (h : n < 10 ^ k) :
    Plain k (decimalPad width n) := by
  refine plain_ofList (fun c hc => ?_) ?_
  · exact isPrintable_of_isDecimal (isDecimal_of_mem_leftpad hc)
  · rw [List.length_leftpad]
    exact Nat.max_le.2 ⟨hwidth, length_toDigits_le hk h⟩

theorem plain_signed {d : Int} {k : Nat} (hk : 0 < k) (h : d.natAbs < 10 ^ k) :
    Plain (1 + k) (signed d) := by
  cases d with
  | ofNat n => exact (plain_decimal hk h).mono (Nat.le_add_left k 1)
  | negSucc n => exact Plain.append (plain_of_isPlain (by decide)) (plain_decimal hk h)

end RealModeTrace.Text

namespace RealModeTrace

open Text

/-! ### Rows of bytes -/

/-- Three characters for each byte that has one before it. -/
theorem plain_hexTail (bs : List UInt8) :
    Plain (bs.length * 3) (String.join (bs.flatMap fun b => [" ", hexByte b])) := by
  induction bs with
  | nil => exact plain_empty
  | cons b bs ih =>
    have hpair : Plain 3 (String.join [" ", hexByte b]) :=
      .join (.cons (plain_of_isPlain (by decide)) (.cons (plain_hexByte b) .nil))
    refine (hpair.join_append ih).mono ?_
    rw [List.length_cons]
    omega

theorem plain_hexPieces (bs : List UInt8) :
    Plain (bs.length * 3 - 1) (String.join (hexPieces bs)) := by
  cases bs with
  | nil => exact plain_empty
  | cons b bs =>
    rw [hexPieces, String.join_cons]
    refine ((plain_hexByte b).append (plain_hexTail bs)).mono ?_
    rw [List.length_cons]
    omega

/-- A column is as wide as it has to be. -/
theorem plain_hexColumn {width : Nat} {bs : List UInt8} (h : bs.length * 3 - 1 ≤ width) :
    Plain width (hexColumn width bs) := by
  have hpad : Plain (width - (bs.length * 3 - 1))
      (String.ofList (List.replicate (width - (bs.length * 3 - 1)) ' ')) := by
    refine plain_ofList (fun c hc => ?_) (Nat.le_of_eq List.length_replicate)
    rw [(List.mem_replicate.1 hc).2]
    rfl
  exact ((plain_hexPieces bs).append hpad).mono (by omega)

end RealModeTrace
