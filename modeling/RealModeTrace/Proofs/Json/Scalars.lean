import RealModeTrace.Json.Printer
import RealModeTrace.Json.Reader
import RealModeTrace.Proofs.Text.Numerals

/-!
# Reading strings and numbers back

* `readString_escaped`: an escaped text is read up to its closing quote, whatever comes after it;
* `Ended`: a text that does not go on with a number;
* `readNumber_append`: what is read as a number stays one when such a text comes after it;
* `readNumber_signed`: an integer that the reader keeps as a number is read from its own digits.
-/

namespace RealModeTrace.Json

open Text

/-! ### Strings -/

theorem digitValue_toLower : ∀ n, n < 16 → digitValue (hexDigit n).toLower = some n := by
  decide

/-- The escape of a control character by its number. -/
theorem readEscape_control {c : Char} (hc : c < ' ') (r : List Char) :
    readEscape ('u' :: '0' :: '0' :: (hexDigit (c.toNat / 16)).toLower ::
      (hexDigit (c.toNat % 16)).toLower :: r) = some (c, r) := by
  have hlt : c.toNat < 32 := hc
  obtain ⟨hall, hvalue⟩ := natOfDigits_sixteen (by omega)
    (digitValue_toLower (c.toNat / 16) (by omega)) (digitValue_toLower (c.toNat % 16) (by omega))
  have hunit : readUnit ('0' :: '0' :: (hexDigit (c.toNat / 16)).toLower ::
      (hexDigit (c.toNat % 16)).toLower :: r) = some (c.toNat, r) := by
    simp only [readUnit, List.take_succ_cons, List.take_zero, List.drop_succ_cons, List.drop_zero,
      hall, hvalue]
    rfl
  simp only [readEscape, readUnicode, hunit, Option.bind_eq_bind, Option.bind_some]
  rw [if_neg (by simp; omega), if_neg (by simp; omega), Char.ofNat_toNat]

theorem readString_escape {cs r : List Char} {c : Char} (h : readEscape cs = some (c, r)) :
    readString ('\\' :: cs) = (readString r).map fun result => (c :: result.1, result.2) := by
  rw [readString, if_neg (by decide), if_pos rfl]
  split
  · next e s hs =>
    rw [h] at hs
    cases hs
    rfl
  · next hs => simp [h] at hs

theorem readString_escapeChar (c : Char) (r : List Char) :
    readString (escapeChar c ++ r) =
      (readString r).map fun result => (c :: result.1, result.2) := by
  unfold escapeChar
  split_ifs with hquote hslash hb ht hn hf hr hcontrol
  -- the escapes of one letter, then the one by number, then characters that stand for themselves
  any_goals
    subst_vars
    exact readString_escape rfl
  · exact readString_escape (readEscape_control hcontrol r)
  · rw [List.singleton_append, readString, if_neg hquote, if_neg hslash, if_neg hcontrol]

/-- An escaped text is read up to its closing quote. -/
theorem readString_escaped (cs r : List Char) :
    readString (cs.flatMap escapeChar ++ '"' :: r) = some (cs, r) := by
  induction cs with
  | nil => rw [List.flatMap_nil, List.nil_append, readString, if_pos rfl]
  | cons c cs ih =>
    rw [List.flatMap_cons, List.append_assoc, readString_escapeChar, ih]
    rfl

/-! ### Numbers -/

/-- A character that may continue a number. -/
def continuesNumber (c : Char) : Bool :=
  isDecimal c || c == '.' || c == 'e' || c == 'E'

/-- The text does not go on with a number. -/
def Ended (r : List Char) : Prop :=
  ∀ c ∈ r.head?, continuesNumber c = false

theorem ended_nil : Ended [] := nofun

theorem ended_cons {c : Char} {r : List Char} (h : continuesNumber c = false) : Ended (c :: r) :=
  fun d hd => by
    cases hd
    exact h

variable {cs r rest ds : List Char}

theorem Ended.not_isDecimal (h : Ended rest) : ∀ c ∈ rest.head?, isDecimal c = false :=
  fun c hc => by
    have := h c hc
    simp only [continuesNumber, Bool.or_eq_false_iff] at this
    exact this.1.1.1

/-- The next character is a digit exactly if it is one without the text after. -/
theorem Ended.any_head (h : Ended rest) :
    (cs ++ rest).head?.any isDecimal = cs.head?.any isDecimal := by
  cases cs with
  | cons c cs => rfl
  | nil => cases rest with
    | nil => rfl
    | cons c rest => exact h.not_isDecimal c rfl

theorem readWhole_append (hrest : Ended rest) (h : readWhole cs = some (ds, r)) :
    readWhole (cs ++ rest) = some (ds, r ++ rest) := by
  cases cs with
  | nil => cases h
  | cons c cs =>
    simp only [readWhole, List.cons_append, hrest.any_head,
      takeWhile_append_of_head hrest.not_isDecimal,
      dropWhile_append_of_head hrest.not_isDecimal] at h ⊢
    split_ifs at h ⊢ <;> cases h <;> rfl

theorem readFraction_append (hrest : Ended rest) (h : readFraction cs = some (ds, r)) :
    readFraction (cs ++ rest) = some (ds, r ++ rest) := by
  unfold readFraction at h
  split at h
  · next cs =>
    simp only [readFraction, List.cons_append, hrest.any_head,
      takeWhile_append_of_head hrest.not_isDecimal,
      dropWhile_append_of_head hrest.not_isDecimal]
    split_ifs at h ⊢
    cases h
    rfl
  · next hpoint =>
    cases h
    rw [readFraction]
    rintro s hs
    cases cs with
    | cons c cs =>
      cases hs
      exact hpoint cs rfl
    | nil =>
      rw [List.nil_append] at hs
      exact absurd (hrest '.' (by rw [hs]; rfl)) (by decide)

theorem readExponent_of_ended (h : Ended r) : readExponent r = some (none, r) := by
  cases r with
  | nil => rfl
  | cons c r =>
    have hc := h c rfl
    simp only [continuesNumber, Bool.or_eq_false_iff, beq_eq_false_iff_ne] at hc
    simp [readExponent, hc.1.2, hc.2]

/-- The sign of an exponent, whether it is a minus, and what follows it. -/
def exponentSign : List Char → Bool × List Char
  | '-' :: r => (true, r)
  | '+' :: r => (false, r)
  | r => (false, r)

/-- An exponent after its sign. -/
def exponentDigits (negative : Bool) (cs : List Char) : Option (Option Int × List Char) :=
  if cs.head?.any isDecimal then
    let n : Int := natOfDigits 10 (cs.takeWhile isDecimal)
    some (some (if negative then -n else n), cs.dropWhile isDecimal)
  else none

theorem readExponent_mark {c : Char} (hc : c = 'e' ∨ c = 'E') (cs : List Char) :
    readExponent (c :: cs) = exponentDigits (exponentSign cs).1 (exponentSign cs).2 := by
  have hmark : (decide (c = 'e') || decide (c = 'E')) = true := by simpa using hc
  unfold readExponent
  exact if_pos hmark

theorem readExponent_other {c : Char} (hc : ¬(c = 'e' ∨ c = 'E')) (cs : List Char) :
    readExponent (c :: cs) = some (none, c :: cs) := by
  rw [not_or] at hc
  simp [readExponent, hc]

theorem exponentSign_append (h : cs ≠ []) (rest : List Char) :
    exponentSign (cs ++ rest) = ((exponentSign cs).1, (exponentSign cs).2 ++ rest) := by
  rcases cs with _ | ⟨c, cs⟩
  · exact absurd rfl h
  · by_cases hminus : c = '-'
    · rw [hminus]
      rfl
    · by_cases hplus : c = '+'
      · rw [hplus]
        rfl
      · simp [exponentSign, hminus, hplus]

theorem exponentDigits_append {negative : Bool} {exponent : Option Int} (hrest : Ended rest)
    (h : exponentDigits negative cs = some (exponent, r)) :
    exponentDigits negative (cs ++ rest) = some (exponent, r ++ rest) := by
  simp only [exponentDigits, hrest.any_head, takeWhile_append_of_head hrest.not_isDecimal,
    dropWhile_append_of_head hrest.not_isDecimal] at h ⊢
  split_ifs at h ⊢ <;> cases h <;> rfl

theorem readExponent_append {exponent : Option Int} (hrest : Ended rest)
    (h : readExponent cs = some (exponent, r)) :
    readExponent (cs ++ rest) = some (exponent, r ++ rest) := by
  rcases cs with _ | ⟨c, cs⟩
  · cases h
    exact readExponent_of_ended hrest
  · rw [List.cons_append]
    by_cases hc : c = 'e' ∨ c = 'E'
    · rw [readExponent_mark hc] at h ⊢
      have hne : cs ≠ [] := by
        rintro rfl
        cases h
      rw [exponentSign_append hne]
      exact exponentDigits_append hrest h
    · rw [readExponent_other hc] at h ⊢
      cases h
      rfl

/-- A number after its sign; `start` is its text with the sign. -/
def readUnsigned (negative : Bool) (start cs : List Char) : Option (Json × List Char) := do
  let (whole, r) ← readWhole cs
  let (fraction, r) ← readFraction r
  let (exponent, r) ← readExponent r
  if tooLarge whole fraction (exponent.getD 0) then none
  else match fraction, exponent, integerOf? negative whole with
    | [], none, some n => some (.integer n, r)
    | _, _, _ => some (.real (String.ofList (start.take (start.length - r.length))), r)

theorem readNumber_minus (cs : List Char) :
    readNumber ('-' :: cs) = readUnsigned true ('-' :: cs) cs := rfl

theorem readNumber_of_head {c : Char} (h : c ≠ '-') (cs : List Char) :
    readNumber (c :: cs) = readUnsigned false (c :: cs) (c :: cs) := by
  unfold readNumber
  split
  · next hm =>
    split at hm
    · next heq =>
      cases heq
      exact absurd rfl h
    · cases hm
      rfl

variable {v : Json} {negative : Bool}

/-- What is read as a number is not empty, and what it begins with. -/
theorem head_of_readWhole (h : readWhole cs = some (ds, r)) :
    ∃ c t, cs = c :: t ∧ isDecimal c = true := by
  rcases cs with _ | ⟨c, t⟩
  · cases h
  · refine ⟨c, t, rfl, ?_⟩
    rw [readWhole] at h
    split_ifs at h with hzero hnext hc
    · rw [hzero]
      rfl
    · exact hc

theorem head_of_readUnsigned {start : List Char}
    (h : readUnsigned negative start cs = some (v, r)) :
    ∃ c t, cs = c :: t ∧ isDecimal c = true := by
  simp only [readUnsigned, Option.bind_eq_bind, Option.bind_eq_some_iff, Prod.exists] at h
  obtain ⟨ds, s, hwhole, -⟩ := h
  exact head_of_readWhole hwhole

/-- A character with which a number may begin. -/
def BeginsNumber (c : Char) : Prop :=
  c = '-' ∨ isDecimal c = true

instance (c : Char) : Decidable (BeginsNumber c) :=
  inferInstanceAs (Decidable (c = '-' ∨ isDecimal c = true))

theorem BeginsNumber.ne {c d : Char} (hc : BeginsNumber c) (hd : ¬BeginsNumber d) : c ≠ d := by
  rintro rfl
  exact hd hc

theorem BeginsNumber.not_isSpace {c : Char} (hc : BeginsNumber c) : isSpace c = false := by
  simp only [isSpace, Bool.or_eq_false_iff, beq_eq_false_iff_ne]
  exact ⟨⟨⟨hc.ne (by decide), hc.ne (by decide)⟩, hc.ne (by decide)⟩, hc.ne (by decide)⟩

theorem head_of_readNumber (h : readNumber cs = some (v, r)) :
    ∃ c t, cs = c :: t ∧ BeginsNumber c := by
  rcases cs with _ | ⟨c, t⟩
  · cases h
  · refine ⟨c, t, rfl, ?_⟩
    by_cases hminus : c = '-'
    · exact Or.inl hminus
    · rw [readNumber_of_head hminus] at h
      obtain ⟨d, u, heq, hd⟩ := head_of_readUnsigned h
      cases heq
      exact Or.inr hd

/-- A number that is all of a text is the same number in front of a text that does not go on with
one. -/
theorem readUnsigned_append {start : List Char} (hrest : Ended rest)
    (h : readUnsigned negative start cs = some (v, [])) :
    readUnsigned negative (start ++ rest) (cs ++ rest) = some (v, rest) := by
  simp only [readUnsigned, Option.bind_eq_bind, Option.bind_eq_some_iff, Prod.exists] at h ⊢
  obtain ⟨whole, r₁, hwhole, fraction, r₂, hfraction, exponent, r₃, hexponent, h⟩ := h
  refine ⟨whole, _, readWhole_append hrest hwhole, fraction, _,
    readFraction_append hrest hfraction, exponent, _, readExponent_append hrest hexponent, ?_⟩
  split_ifs at h ⊢ with hlarge
  split at h
  all_goals
    cases h
    simp

theorem readNumber_append (hrest : Ended rest) (h : readNumber cs = some (v, [])) :
    readNumber (cs ++ rest) = some (v, rest) := by
  obtain ⟨c, t, rfl, -⟩ := head_of_readNumber h
  by_cases hminus : c = '-'
  · subst hminus
    rw [readNumber_minus] at h
    have happend := readUnsigned_append hrest h
    rw [List.cons_append] at happend ⊢
    rwa [readNumber_minus]
  · rw [readNumber_of_head hminus] at h
    rw [List.cons_append, readNumber_of_head hminus]
    exact readUnsigned_append hrest h

/-! ### Integers -/

theorem le_absorbed (m : Nat) (ds : List Char) :
    m ≤ ds.foldl (fun n c => n * 10 + (digitValue c).getD 0) m := by
  induction ds generalizing m with
  | nil => exact Nat.le_refl m
  | cons d ds ih => exact Nat.le_trans (by omega) (ih (m * 10 + (digitValue d).getD 0))

/-- Digits that fit sixty-four bits are all added to the significand. -/
theorem absorb_of_lt {m : Nat} {ds : List Char}
    (h : ds.foldl (fun n c => n * 10 + (digitValue c).getD 0) m < UInt64.size) :
    absorb m ds = (ds.foldl (fun n c => n * 10 + (digitValue c).getD 0) m, []) := by
  induction ds generalizing m with
  | nil => rfl
  | cons d ds ih =>
    have hle := le_absorbed (m * 10 + (digitValue d).getD 0) ds
    rw [List.foldl_cons] at h ⊢
    rw [absorb, if_pos (Nat.lt_of_le_of_lt hle h)]
    exact ih h

/-- Rounding to fifty-three binary digits adds at most one unit of the last of them. -/
theorem roundBinary_le (n : Nat) : roundBinary n ≤ n + 2 ^ (n.log2 + 1 - 53) := by
  have hn := Nat.div_add_mod' n (2 ^ (n.log2 + 1 - 53))
  have hsucc := Nat.add_one_mul (n / 2 ^ (n.log2 + 1 - 53)) (2 ^ (n.log2 + 1 - 53))
  simp only [roundBinary, Nat.pow_eq]
  split_ifs <;> omega

theorem roundBinary_lt_doubleBound {n : Nat} (h : n < UInt64.size) :
    roundBinary n < doubleBound := by
  have hlog : n.log2 < 64 := by
    rcases Nat.eq_zero_or_pos n with rfl | hpos
    · decide
    · exact (Nat.log2_lt (by omega)).2 h
  have hunit : 2 ^ (n.log2 + 1 - 53) ≤ 2 ^ 11 := Nat.pow_le_pow_right (by decide) (by omega)
  have hround := roundBinary_le n
  have hbound : UInt64.size + 2 ^ 11 ≤ doubleBound := by decide +kernel
  omega

theorem not_tooLarge {ds : List Char} (h : natOfDigits 10 ds < UInt64.size) :
    tooLarge ds [] 0 = false := by
  have hfit : absorb 0 ds = (natOfDigits 10 ds, []) := absorb_of_lt h
  have hone : roundBinary (Nat.pow 10 0) = 1 := by decide
  have hbound := roundBinary_lt_doubleBound h
  have hproduct : productExceedsDouble (natOfDigits 10 ds) 0 = false := by
    have hsmall : ¬308 < 0 := by decide
    show (if _ then _ else _) = _
    rw [if_neg hsmall, hone, Nat.mul_one, decide_eq_false (Nat.not_le.2 hbound), ite_self]
  rw [tooLarge, hfit]
  exact hproduct

/-- A numeral without a sign is read from its digits. -/
theorem readWhole_toDigits (n : Nat) :
    readWhole (Nat.toDigits 10 n) = some (Nat.toDigits 10 n, []) := by
  rcases toDigits_cases n with ⟨-, h⟩ | ⟨c, cs, h, hzero, hc, hcs⟩
  · rw [h]
    rfl
  · rw [h, readWhole, if_neg hzero, if_pos hc, List.takeWhile_eq_self_iff.2 hcs,
      List.dropWhile_eq_nil_iff.2 hcs]

theorem readUnsigned_toDigits {negative : Bool} {start : List Char} {k : Nat} {n : Int}
    (hk : k < UInt64.size) (hn : integerOf? negative (Nat.toDigits 10 k) = some n) :
    readUnsigned negative start (Nat.toDigits 10 k) = some (.integer n, []) := by
  have hlarge : tooLarge (Nat.toDigits 10 k) [] 0 = false :=
    not_tooLarge (by rwa [natOfDigits_toDigits])
  simp [readUnsigned, readWhole_toDigits, readFraction, readExponent, hlarge, hn]

/-- The integers that the reader keeps as numbers. -/
def Kept (n : Int) : Prop :=
  -(negativeBound : Int) ≤ n ∧ n < UInt64.size

/-- An integer that the reader keeps is read from its own digits. -/
theorem readNumber_signed {n : Int} (h : Kept n) :
    readNumber (signed n).toList = some (.integer n, []) := by
  obtain ⟨hlow, hhigh⟩ := h
  cases n with
  | ofNat k =>
    have hk : k < UInt64.size := Int.ofNat_lt.1 hhigh
    obtain ⟨c, cs, hcs, hdigit⟩ := head_of_readWhole (readWhole_toDigits k)
    have hminus : c ≠ '-' := by
      rintro rfl
      exact absurd hdigit (by decide)
    have hvalue : integerOf? false (Nat.toDigits 10 k) = some (k : Int) := by
      rw [integerOf?, natOfDigits_toDigits, if_neg Bool.false_ne_true]
      exact if_pos hk
    rw [signed, decimal, String.toList_ofList, hcs, readNumber_of_head hminus, ← hcs]
    exact readUnsigned_toDigits hk hvalue
  | negSucc k =>
    have hk : k + 1 ≤ negativeBound := by omega
    have hvalue : integerOf? true (Nat.toDigits 10 (k + 1)) = some (Int.negSucc k) := by
      rw [integerOf?, natOfDigits_toDigits, if_pos rfl]
      exact if_pos ⟨Nat.succ_ne_zero k, hk⟩
    rw [signed, decimal, String.toList_append, String.toList_ofList, String.toList_ofList,
      List.singleton_append, readNumber_minus]
    exact readUnsigned_toDigits (Nat.lt_of_le_of_lt hk (by decide)) hvalue

end RealModeTrace.Json
