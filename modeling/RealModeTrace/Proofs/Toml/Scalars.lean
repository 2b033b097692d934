import RealModeTrace.Toml.Statement
import RealModeTrace.Proofs.Text.Numerals
import RealModeTrace.Proofs.Toml.Quoted

/-!
# Reading values at the end of a line

* `Spells text v`: the text, when its line ends there, is read as the value;
* `spells_true`, `spells_false`, `spells_quoted`, `spells_decimal`: what is written for truth
  values, texts and numbers.
-/

namespace RealModeTrace.Toml

open Text

/-- The text, when its line ends there, is read as the value. -/
def Spells (text : List Char) (v : Value) : Prop :=
  ∀ (limit : Nat) (r : List Char),
    readValue limit nestingLimit (skipSpaces (text ++ '\n' :: r)) = some (v, '\n' :: r)

variable {c : Char} {cs ds r s : List Char} {v : Value}

theorem skipSpaces_of_head (h : isSpace c = false) : skipSpaces (c :: cs) = c :: cs :=
  List.dropWhile_cons_of_neg (by rw [h]; exact Bool.false_ne_true)

/-- A text that begins neither with a blank nor with a bracket or brace is read as a scalar. -/
theorem spells_of_readScalar (hspace : isSpace c = false) (harray : c ≠ '[') (htable : c ≠ '\x7b')
    (h : ∀ r, readScalar (c :: cs ++ '\n' :: r) = some (v, '\n' :: r)) : Spells (c :: cs) v := by
  intro limit r
  rw [List.cons_append, skipSpaces_of_head hspace, nestingLimit, readValue]
  · exact h r
  · exact fun _ heq => harray (List.cons.inj heq).1
  · exact fun _ heq => htable (List.cons.inj heq).1

theorem spells_true : Spells "true".toList (.boolean true) :=
  spells_of_readScalar (c := 't') rfl (by decide) (by decide) fun _ => rfl

theorem spells_false : Spells "false".toList (.boolean false) :=
  spells_of_readScalar (c := 'f') rfl (by decide) (by decide) fun _ => rfl

/-! ### Quoted texts -/

theorem readScalar_of_quote (hc : c = '"' ∨ c = '\'') (cs : List Char) :
    readScalar (c :: cs) =
      (readQuoted (c :: cs)).map fun result => (.string (String.ofList result.1), result.2) := by
  rcases hc with rfl | rfl <;> rfl

theorem spells_quoted (s : String) : Spells (quoted s).toList (.string s) := by
  have hread : ∀ r, readQuoted (quoteAs (formOf s.toList) s.toList ++ '\n' :: r) =
      some (s.toList, '\n' :: r) := fun r =>
    readQuoted_quoteAs (holds_formOf s.toList) fun c hc => by cases hc; decide
  obtain ⟨c, t, hquoted, hc⟩ := head_quoteAs (formOf s.toList) s.toList
  rw [quoted, String.toList_ofList, hquoted]
  rw [hquoted] at hread
  have hscalar : ∀ r, readScalar (c :: t ++ '\n' :: r) = some (.string s, '\n' :: r) := fun r => by
    rw [List.cons_append, readScalar_of_quote hc, ← List.cons_append, hread, Option.map_some,
      String.ofList_toList]
  rcases hc with rfl | rfl
  · exact spells_of_readScalar rfl (by decide) (by decide) hscalar
  · exact spells_of_readScalar rfl (by decide) (by decide) hscalar

/-! ### Numbers -/

/-- A digit is none of the other characters that a value may begin with. -/
theorem ne_of_isDecimal {d : Char} (hc : isDecimal c = true) (hd : isDecimal d = false) :
    c ≠ d := by
  rintro rfl
  exact Bool.false_ne_true (hd.symm.trans hc)

theorem readScalar_of_digit (hc : isDecimal c = true) (cs : List Char) :
    readScalar (c :: cs) = readNumber (c :: cs) := by
  have ht : c ≠ 't' := ne_of_isDecimal hc rfl
  have hf : c ≠ 'f' := ne_of_isDecimal hc rfl
  have hdouble : c ≠ '"' := ne_of_isDecimal hc rfl
  have hsingle : c ≠ '\'' := ne_of_isDecimal hc rfl
  simp [readScalar, ht, hf, hdouble, hsingle]

theorem digitsTail_append (h : ∀ c ∈ ds, isDecimal c = true) (r : List Char) :
    digitsTail isDecimal (ds ++ '\n' :: r) = (ds, '\n' :: r) := by
  induction ds with
  | nil => rfl
  | cons d ds ih =>
    obtain ⟨hd, hds⟩ := List.forall_mem_cons.1 h
    have hunderscore : d ≠ '_' := ne_of_isDecimal hd rfl
    rw [List.cons_append, digitsTail, if_pos hd, ih hds]
    exact fun _ _ heq => absurd heq hunderscore

theorem readWhole_toDigits (n : Nat) (r : List Char) :
    readWhole (Nat.toDigits 10 n ++ '\n' :: r) = some (Nat.toDigits 10 n, '\n' :: r) := by
  rcases toDigits_cases n with ⟨-, h⟩ | ⟨c, cs, h, hzero, hc, hcs⟩
  · rw [h]
    rfl
  · rw [h, List.cons_append, readWhole, readDigits, if_pos hc, digitsTail_append hcs]
    exact fun _ heq => absurd (List.cons.inj heq).1 hzero

/-- Where a line of digits ends, a field of a date is followed by another digit or by that end. -/
theorem expect_after_field {count low high n : Nat} (hds : ∀ c ∈ ds, isDecimal c = true)
    (h : readField count low high (ds ++ '\n' :: r) = some (n, s)) (hc : isDecimal c = false)
    (hbreak : c ≠ '\n') : expect c s = none := by
  simp only [readField, Option.ite_none_right_eq_some, Bool.and_eq_true, List.all_eq_true,
    Option.some.injEq, Prod.mk.injEq] at h
  obtain ⟨⟨⟨⟨-, hall⟩, -⟩, -⟩, -, rfl⟩ := h
  have hcount : count ≤ ds.length := by
    by_contra hlt
    obtain ⟨k, hk⟩ : ∃ k, count - ds.length = k + 1 := ⟨count - ds.length - 1, by omega⟩
    have hmem : '\n' ∈ (ds ++ '\n' :: r).take count := by
      rw [List.take_append, hk, List.take_succ_cons]
      exact List.mem_append_right _ List.mem_cons_self
    exact absurd (hall '\n' hmem) (by decide)
  rw [List.drop_append_of_le_length hcount]
  rcases hdrop : ds.drop count with _ | ⟨d, rest⟩
  · rw [List.nil_append, expect, if_neg (Ne.symm hbreak)]
  · have hd : isDecimal d = true := hds d (List.mem_of_mem_drop (i := count) (by simp [hdrop]))
    rw [List.cons_append, expect, if_neg (ne_of_isDecimal hd hc)]

theorem readDate_eq_none (hds : ∀ c ∈ ds, isDecimal c = true) (r : List Char) :
    readDate (ds ++ '\n' :: r) = none := by
  rw [readDate, Option.bind_eq_bind, Option.bind_eq_none_iff]
  rintro ⟨year, s⟩ hyear
  dsimp only
  rw [expect_after_field hds hyear rfl (by decide)]
  rfl

theorem readTime_eq_none (hds : ∀ c ∈ ds, isDecimal c = true) (r : List Char) :
    readTime (ds ++ '\n' :: r) = none := by
  rw [readTime, Option.bind_eq_bind, Option.bind_eq_none_iff]
  rintro ⟨hour, s⟩ hhour
  dsimp only
  rw [expect_after_field hds hhour rfl (by decide)]
  rfl

/-- Digits alone are no date. -/
theorem readDateTime_eq_none (hds : ∀ c ∈ ds, isDecimal c = true) (r : List Char) :
    readDateTime (ds ++ '\n' :: r) = none := by
  rw [readDateTime, readDate_eq_none hds, readTime_eq_none hds]

theorem readSign_of_digit (hc : isDecimal c = true) (cs : List Char) :
    readSign (c :: cs) = (false, c :: cs) := by
  have hminus : c ≠ '-' := ne_of_isDecimal hc rfl
  have hplus : c ≠ '+' := ne_of_isDecimal hc rfl
  simp [readSign, hminus, hplus]

/-- Digits alone are no float. -/
theorem readFloat_toDigits (n : Nat) (r : List Char) :
    readFloat (Nat.toDigits 10 n ++ '\n' :: r) = none := by
  have hparts : readParts (Nat.toDigits 10 n ++ '\n' :: r) = none := by
    rw [readParts, readWhole_toDigits]
    rfl
  obtain ⟨c, cs, h⟩ := List.exists_cons_of_ne_nil (Nat.toDigits_ne_nil (n := n) (b := 10))
  have hc : isDecimal c = true := isDecimal_toDigits n c (by rw [h]; exact List.mem_cons_self)
  have hi : c ≠ 'i' := ne_of_isDecimal hc rfl
  have hn : c ≠ 'n' := ne_of_isDecimal hc rfl
  rw [h, List.cons_append] at hparts ⊢
  simp [readFloat, readSign_of_digit hc, hi, hn, hparts]

theorem readInteger_toDigits {n : Nat} (h : n < integerBound) (r : List Char) :
    readInteger (Nat.toDigits 10 n ++ '\n' :: r) = some (.integer n, '\n' :: r) := by
  have hwhole := readWhole_toDigits n r
  have hvalue := natOfDigits_toDigits n
  rcases toDigits_cases n with ⟨rfl, hds⟩ | ⟨c, cs, hds, hzero, hc, -⟩
  · rw [hds]
    rfl
  · rw [hds] at hwhole hvalue ⊢
    rw [List.cons_append] at hwhole ⊢
    simp [readInteger, hzero, readSign_of_digit hc, hwhole, hvalue, h]

theorem spells_decimal {n : Nat} (h : n < integerBound) :
    Spells (decimal n).toList (.integer n) := by
  have hnumber : ∀ r, readNumber (Nat.toDigits 10 n ++ '\n' :: r) =
      some (.integer n, '\n' :: r) := fun r => by
    rw [readNumber, readDateTime_eq_none (isDecimal_toDigits n), readFloat_toDigits,
      readInteger_toDigits h]
    rfl
  obtain ⟨c, cs, hds⟩ := List.exists_cons_of_ne_nil (Nat.toDigits_ne_nil (n := n) (b := 10))
  have hc : isDecimal c = true := isDecimal_toDigits n c (by rw [hds]; exact List.mem_cons_self)
  have hspace : isSpace c = false := by
    simp [isSpace, ne_of_isDecimal hc (d := ' ') rfl, ne_of_isDecimal hc (d := '\t') rfl]
  rw [decimal, String.toList_ofList, hds]
  rw [hds] at hnumber
  refine spells_of_readScalar hspace (ne_of_isDecimal hc rfl) (ne_of_isDecimal hc rfl) fun r => ?_
  rw [List.cons_append, readScalar_of_digit hc]
  exact hnumber r

end RealModeTrace.Toml
