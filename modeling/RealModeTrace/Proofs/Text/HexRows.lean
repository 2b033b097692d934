import RealModeTrace.HexBytes
import Mathlib.Data.String.Basic

/-!
# Reading digits of base sixteen back

Bytes and words are shown with upper-case digits. The readers below take no other digits.

* `upperValue?`, `readByte?`: the value of one digit and of two;
* `readWord?`: four digits, and the text after them; `readWord?_hexWord`: they are read as the word
  that they show;
* `readHexRow?`: pairs of digits with one space between two pairs; `readHexRow?_hexBytes`: a row of
  bytes is read as the bytes that it shows; `readHexRow?_eq_some_iff`: no other text is;
* `toList_hexBytes`, `length_hexBytes`: the characters of a row, and how many there are.
-/

namespace RealModeTrace

open Text

/-! ### Digits -/

/-- The number that an upper-case digit shows. -/
def upperValue? (c : Char) : Option Nat :=
  (List.range 16).find? (hexDigit · == c)

/-- The byte that two upper-case digits show. -/
def readByte? (high low : Char) : Option UInt8 := do
  let high ← upperValue? high
  let low ← upperValue? low
  return .ofNat (high * 16 + low)

/-- The word that the first four characters show in upper-case digits, and the other characters. -/
def readWord? : List Char → Option (UInt16 × List Char)
  | a :: b :: c :: d :: cs => do
    let high ← readByte? a b
    let low ← readByte? c d
    return (.ofNat (high.toNat * 256 + low.toNat), cs)
  | _ => none

theorem upperValue?_hexDigit : ∀ n, n < 16 → upperValue? (hexDigit n) = some n := by
  decide

theorem readByte?_hexDigit {high low : Nat} (hhigh : high < 16) (hlow : low < 16) :
    readByte? (hexDigit high) (hexDigit low) = some (.ofNat (high * 16 + low)) := by
  simp only [readByte?, upperValue?_hexDigit _ hhigh, upperValue?_hexDigit _ hlow]
  rfl

/-- Only upper-case digits are read. -/
theorem hexDigit_of_upperValue? {c : Char} {n : Nat} (h : upperValue? c = some n) :
    n < 16 ∧ hexDigit n = c :=
  ⟨List.mem_range.1 (List.mem_of_find?_eq_some h),
    beq_iff_eq.1 (List.find?_some (p := fun n => hexDigit n == c) h)⟩

/-- Two digits are read as the byte that is shown so. -/
theorem toList_hexByte_of_readByte? {high low : Char} {b : UInt8}
    (h : readByte? high low = some b) : (hexByte b).toList = [high, low] := by
  obtain ⟨m, hm, hmore⟩ := Option.bind_eq_some_iff.1 h
  obtain ⟨n, hn, -⟩ := Option.bind_eq_some_iff.1 hmore
  obtain ⟨hhigh, rfl⟩ := hexDigit_of_upperValue? hm
  obtain ⟨hlow, rfl⟩ := hexDigit_of_upperValue? hn
  obtain rfl := Option.some.inj ((readByte?_hexDigit hhigh hlow).symm.trans h)
  have hb : (UInt8.ofNat (m * 16 + n)).toNat = m * 16 + n := by
    rw [UInt8.toNat_ofNat']
    omega
  have hdiv : (m * 16 + n) / 16 = m := by omega
  have hmod : (m * 16 + n) % 16 = n := by omega
  rw [hexByte, String.toList_ofList, hb, hdiv, hmod]

/-- A word is read as it is shown, whatever stands after it. -/
theorem readWord?_hexWord (w : UInt16) (cs : List Char) :
    readWord? ((hexWord w).toList ++ cs) = some (w, cs) := by
  have hw : w.toNat < 65536 := w.toNat_lt
  have hhigh : readByte? (hexDigit (w.toNat / 4096)) (hexDigit (w.toNat / 256 % 16)) =
      some (.ofNat (w.toNat / 256)) := by
    rw [readByte?_hexDigit (by omega) (by omega)]
    congr 2
    omega
  have hlow : readByte? (hexDigit (w.toNat / 16 % 16)) (hexDigit (w.toNat % 16)) =
      some (.ofNat (w.toNat % 256)) := by
    rw [readByte?_hexDigit (by omega) (by omega)]
    congr 2
    omega
  have hvalue : UInt16.ofNat ((UInt8.ofNat (w.toNat / 256)).toNat * 256 +
      (UInt8.ofNat (w.toNat % 256)).toNat) = w := by
    rw [← UInt16.toNat_inj, UInt16.toNat_ofNat', UInt8.toNat_ofNat', UInt8.toNat_ofNat']
    omega
  rw [hexWord, String.toList_ofList]
  show (readByte? _ _).bind _ = _
  rw [hhigh]
  show (readByte? _ _).bind _ = _
  rw [hlow]
  exact congrArg (fun v => some (v, cs)) hvalue

/-! ### Rows -/

/-- The bytes that pairs of upper-case digits show, with a space before each pair. -/
def readPairs? : List Char → Option (List UInt8)
  | [] => some []
  | ' ' :: high :: low :: cs => do
    let b ← readByte? high low
    let bs ← readPairs? cs
    return b :: bs
  | _ => none

/-- The bytes that pairs of upper-case digits show, with one space between two pairs and none at the
ends. -/
def readHexRow? : List Char → Option (List UInt8)
  | [] => some []
  | c :: cs => readPairs? (' ' :: c :: cs)

theorem readPairs?_pair (b : UInt8) (cs : List Char) :
    readPairs? (' ' :: ((hexByte b).toList ++ cs)) = (readPairs? cs).map (b :: ·) := by
  have hb : b.toNat < 256 := b.toNat_lt
  have hbyte : readByte? (hexDigit (b.toNat / 16)) (hexDigit (b.toNat % 16)) = some b := by
    rw [readByte?_hexDigit (by omega) (by omega), Nat.div_add_mod', UInt8.ofNat_toNat]
  rw [hexByte, String.toList_ofList]
  show (readByte? _ _).bind (fun b => (readPairs? cs).bind fun bs => some (b :: bs)) = _
  rw [hbyte, Option.map_eq_bind]
  rfl

theorem readPairs?_pairs (bs : List UInt8) :
    readPairs? (String.join (bs.flatMap fun b => [" ", hexByte b])).toList = some bs := by
  induction bs with
  | nil => rfl
  | cons b bs ih =>
    rw [List.flatMap_cons, String.join_append, String.toList_append, String.join_cons,
      String.join_cons, String.join_nil, String.append_empty, String.toList_append]
    exact (readPairs?_pair b _).trans (congrArg _ ih)

/-- A row of bytes is read as the bytes that it shows. -/
theorem readHexRow?_hexBytes (bs : List UInt8) : readHexRow? (hexBytes bs).toList = some bs := by
  cases bs with
  | nil => rfl
  | cons b bs =>
    -- with a space in front, the first pair is like the others
    have hfirst (cs : List Char) : readHexRow? ((hexByte b).toList ++ cs) =
        readPairs? (' ' :: ((hexByte b).toList ++ cs)) := by
      rw [hexByte, String.toList_ofList]
      rfl
    rw [hexBytes, hexPieces, String.join_cons, String.toList_append, hfirst, readPairs?_pair,
      readPairs?_pairs]
    rfl

/-- What is read as pairs is pairs. -/
theorem toList_pairs_of_readPairs? {cs : List Char} {bs : List UInt8}
    (h : readPairs? cs = some bs) :
    (String.join (bs.flatMap fun b => [" ", hexByte b])).toList = cs := by
  induction cs using readPairs?.induct generalizing bs with
  | case1 =>
    obtain rfl := Option.some.inj h
    rfl
  | case2 high low cs ih =>
    obtain ⟨b, hb, h⟩ := Option.bind_eq_some_iff.1 h
    obtain ⟨rest, hrest, h⟩ := Option.bind_eq_some_iff.1 h
    obtain rfl := Option.some.inj h
    rw [List.flatMap_cons, String.join_append, String.toList_append, ih hrest, String.join_cons,
      String.join_cons, String.join_nil, String.append_empty, String.toList_append,
      toList_hexByte_of_readByte? hb]
    rfl
  | case3 cs hnil hpair =>
    rw [readPairs?] at h
    · cases h
    · exact hnil
    · exact hpair

theorem toList_hexBytes_of_readHexRow? {cs : List Char} {bs : List UInt8}
    (h : readHexRow? cs = some bs) : (hexBytes bs).toList = cs := by
  cases cs with
  | nil =>
    obtain rfl := Option.some.inj h
    rfl
  | cons c cs =>
    have hpairs := toList_pairs_of_readPairs? h
    cases bs with
    | nil => cases hpairs
    | cons b bs =>
      -- the space that was put in front is that of the first pair
      rw [List.flatMap_cons, List.cons_append, String.join_cons, String.toList_append] at hpairs
      exact (List.cons.inj hpairs).2

/-- A row is the one text that is read as its bytes. -/
theorem readHexRow?_eq_some_iff {s : String} {bs : List UInt8} :
    readHexRow? s.toList = some bs ↔ s = hexBytes bs := by
  constructor
  · exact fun h => (String.toList_inj.1 (toList_hexBytes_of_readHexRow? h)).symm
  · rintro rfl
    exact readHexRow?_hexBytes bs

theorem hexBytes_injective {bs other : List UInt8} (h : hexBytes bs = hexBytes other) :
    bs = other := by
  have hread := readHexRow?_hexBytes bs
  rw [h, readHexRow?_hexBytes] at hread
  exact (Option.some.inj hread).symm

/-- The characters of a row that has a first pair. -/
theorem intercalate_pairs (b : UInt8) (bs : List UInt8) :
    [' '].intercalate ((hexByte b).toList :: bs.map fun b => (hexByte b).toList) =
      (hexByte b).toList ++ (String.join (bs.flatMap fun b => [" ", hexByte b])).toList := by
  induction bs generalizing b with
  | nil => rfl
  | cons next bs ih =>
    rw [List.map_cons, List.intercalate_cons_cons, ih, List.flatMap_cons, String.join_append,
      String.toList_append, String.join_cons, String.join_cons, String.join_nil,
      String.append_empty, String.toList_append, List.append_assoc, List.append_assoc]
    rfl

/-- The pairs, with one space between two of them. -/
theorem toList_hexBytes (bs : List UInt8) :
    (hexBytes bs).toList = [' '].intercalate (bs.map fun b => (hexByte b).toList) := by
  cases bs with
  | nil => rfl
  | cons b bs =>
    rw [hexBytes, hexPieces, String.join_cons, String.toList_append, List.map_cons,
      intercalate_pairs]

/-- Three characters for each byte, without the space before the first. -/
theorem length_hexBytes (bs : List UInt8) : (hexBytes bs).length = bs.length * 3 - 1 := by
  have hpair (b : UInt8) : (hexByte b).length = 2 := String.length_ofList
  have htail (bs : List UInt8) :
      (String.join (bs.flatMap fun b => [" ", hexByte b])).length = bs.length * 3 := by
    induction bs with
    | nil => rfl
    | cons b bs ih =>
      rw [List.flatMap_cons, String.join_append, String.length_append, ih, String.join_cons,
        String.join_cons, String.join_nil, String.append_empty, String.length_append, hpair,
        List.length_cons, Nat.succ_mul, Nat.add_comm]
      rfl
  cases bs with
  | nil => rfl
  | cons b bs =>
    rw [hexBytes, hexPieces, String.join_cons, String.length_append, htail, hpair, List.length_cons]
    omega

end RealModeTrace
