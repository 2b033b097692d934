import RealModeTrace.Proofs.Text.Numerals
import RealModeTrace.Proofs.Trace.Shape

/-!
# The time in a line

The time at the beginning of a line can be read back from it, whatever its value.

* `readTime?`: the number between the marks of the time, in eight digits at least;
* `Record.time?`: the time of a record;
* `Record.readTime?_text`: the line of a record shows the time of the record and no other.
-/

namespace RealModeTrace

open Text

/-- The digits of a number after some zeros write that number. -/
theorem Text.natOfDigits_leftpad (width : Nat) (cs : List Char) :
    natOfDigits 10 (cs.leftpad width '0') = natOfDigits 10 cs := by
  have hzeros : ∀ k, (List.replicate k '0').foldl
      (fun n c => n * 10 + (digitValue c).getD 0) 0 = 0 := fun k => by
    induction k with
    | zero => rfl
    | succ k ih => exact ih
  rw [List.leftpad, natOfDigits, List.foldl_append, hzeros]
  rfl

/-- The number in eight digits at least that ends with the mark of milliseconds. -/
def readMillis? (cs : List Char) : Option Nat :=
  if 8 ≤ (cs.takeWhile isDecimal).length ∧ "ms] ".toList <+: cs.dropWhile isDecimal then
    some (natOfDigits 10 (cs.takeWhile isDecimal))
  else none

/-- The number of milliseconds that a line begins with. -/
def readTime? (line : String) : Option Nat :=
  match line.toList with
  | '[' :: 'T' :: '+' :: cs => readMillis? cs
  | _ => none

theorem readMillis?_leftpad (n : Nat) (rest : List Char) :
    readMillis? ((Nat.toDigits 10 n).leftpad 8 '0' ++ ("ms] ".toList ++ rest)) = some n := by
  have hdigits : ∀ c ∈ (Nat.toDigits 10 n).leftpad 8 '0', isDecimal c = true :=
    fun c hc => isDecimal_of_mem_leftpad hc
  -- the mark after the digits is no digit, so the reader stops there
  have hmark : ∀ c ∈ ("ms] ".toList ++ rest).head?, isDecimal c = false := by
    rintro c ⟨⟩
    rfl
  rw [readMillis?, takeWhile_append_of_head hmark, dropWhile_append_of_head hmark,
    List.takeWhile_eq_self_iff.2 hdigits, List.dropWhile_eq_nil_iff.2 hdigits,
    natOfDigits_leftpad, natOfDigits_toDigits, List.length_leftpad]
  exact if_pos ⟨Nat.le_max_left .., List.prefix_append ..⟩

/-- The time of a record. Banners have none. -/
def Record.time? : Record → Option UInt64
  | .timed elapsed _ => some elapsed
  | .banner _ => none

/-- **The time of a line.** The time that a line shows is the time of its record, for every value
of sixty-four bits, and a banner shows none. -/
theorem Record.readTime?_text (r : Record) : readTime? r.text = r.time?.map UInt64.toNat := by
  cases r with
  | timed elapsed payload =>
    obtain ⟨rest, hrest⟩ := isPrefix_stamp elapsed payload
    rw [List.append_assoc, List.append_assoc] at hrest
    rw [readTime?, ← hrest]
    exact readMillis?_leftpad elapsed.toNat rest
  | banner b =>
    obtain ⟨rest, hrest⟩ := isPrefix_tag b
    rw [readTime?, ← hrest]
    rfl

end RealModeTrace
