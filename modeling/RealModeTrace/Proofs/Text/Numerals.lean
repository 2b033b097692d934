import RealModeTrace.Proofs.Text.Plain
import Mathlib.Data.List.TakeWhile

/-!
# Reading numerals back

* `natOfDigits_toDigits`: the digits of a number write that number;
* `toDigits_cases`: they begin with a zero only if they are that zero alone;
* `natOfDigits_sixteen`: the digits of a small number in an escape;
* `takeWhile_append_of_head`, `dropWhile_append_of_head`: what a reader takes from the head of a
  text does not change when the text goes on with something that it does not take.
-/

namespace RealModeTrace.Text

/-! ### The digits of a number -/

theorem digitValue_of_isDecimal {c : Char} (h : isDecimal c = true) :
    digitValue c = some (c.toNat - '0'.toNat) := by
  rw [isDecimal, Bool.and_eq_true, decide_eq_true_iff, decide_eq_true_iff] at h
  rw [digitValue, if_pos h]

/-- Digits of base ten are read as the standard library reads them. -/
theorem natOfDigits_ten {cs : List Char} (h : ∀ c ∈ cs, isDecimal c = true) :
    natOfDigits 10 cs = Nat.ofDigitChars 10 cs 0 := by
  rw [Nat.ofDigitChars_eq_foldl, natOfDigits]
  refine List.foldl_ext _ _ 0 fun n c hc => ?_
  rw [digitValue_of_isDecimal (h c hc), Option.getD_some, Nat.mul_comm]

theorem isDecimal_toDigits (n : Nat) : ∀ c ∈ Nat.toDigits 10 n, isDecimal c = true :=
  fun _ => isDecimal_of_mem_toDigits

/-- The digits of a number write that number. -/
theorem natOfDigits_toDigits (n : Nat) : natOfDigits 10 (Nat.toDigits 10 n) = n := by
  rw [natOfDigits_ten (isDecimal_toDigits n), Nat.ofDigitChars_ten_toDigits]

theorem head_toDigits_ne_zero {n : Nat} (h : 0 < n) : (Nat.toDigits 10 n).head? ≠ some '0' := by
  induction n using Nat.strongRecOn with
  | ind n ih =>
    rcases Nat.lt_or_ge n 10 with hn | hn
    · rw [Nat.toDigits_of_lt_base hn, List.head?_cons, ne_eq, Option.some.injEq,
        Nat.digitChar_eq_zero]
      omega
    · rw [Nat.toDigits_of_base_le (by decide) hn, List.head?_append_of_ne_nil _ Nat.toDigits_ne_nil]
      exact ih (n / 10) (by omega) (by omega)

/-- A numeral is a zero alone, or it begins with another digit. -/
theorem toDigits_cases (n : Nat) :
    n = 0 ∧ Nat.toDigits 10 n = ['0'] ∨
      ∃ c cs, Nat.toDigits 10 n = c :: cs ∧ c ≠ '0' ∧ isDecimal c = true ∧
        ∀ d ∈ cs, isDecimal d = true := by
  rcases Nat.eq_zero_or_pos n with rfl | hn
  · exact Or.inl ⟨rfl, Nat.toDigits_zero 10⟩
  · obtain ⟨c, cs, h⟩ := List.exists_cons_of_ne_nil (Nat.toDigits_ne_nil (n := n) (b := 10))
    have hdigits := isDecimal_toDigits n
    have hhead := head_toDigits_ne_zero hn
    rw [h] at hdigits hhead
    refine Or.inr ⟨c, cs, h, fun hc => hhead ?_, List.forall_mem_cons.1 hdigits⟩
    rw [hc, List.head?_cons]

/-- Two digits of base sixteen after two zeros write the number that they are the digits of. -/
theorem natOfDigits_sixteen {n : Nat} {high low : Char} (hn : n < 256)
    (hhigh : digitValue high = some (n / 16)) (hlow : digitValue low = some (n % 16)) :
    ['0', '0', high, low].all (isDigitOf 16) = true ∧
      natOfDigits 16 ['0', '0', high, low] = n := by
  have hzero : digitValue '0' = some 0 := rfl
  constructor
  · simp [isDigitOf, hzero, hhigh, hlow]
    omega
  · simp [natOfDigits, hzero, hhigh, hlow]
    omega

/-! ### Texts that go on -/

variable {p : Char → Bool} {cs rest : List Char}

theorem takeWhile_append_of_head (h : ∀ c ∈ rest.head?, p c = false) :
    (cs ++ rest).takeWhile p = cs.takeWhile p := by
  induction cs with
  | nil => cases rest with
    | nil => rfl
    | cons c rest => simp [h c rfl]
  | cons c cs ih => simp only [List.cons_append, List.takeWhile_cons, ih]

theorem dropWhile_append_of_head (h : ∀ c ∈ rest.head?, p c = false) :
    (cs ++ rest).dropWhile p = cs.dropWhile p ++ rest := by
  induction cs with
  | nil => cases rest with
    | nil => rfl
    | cons c rest => simp [h c rfl]
  | cons c cs ih =>
    simp only [List.cons_append, List.dropWhile_cons, ih]
    split <;> rfl

end RealModeTrace.Text
