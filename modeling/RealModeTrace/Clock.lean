/-!
# Clocks and epochs

Trace lines carry the milliseconds since the epoch of the trace. A clock is read whenever a line is
stamped or the epoch is set, and may go on between two readings, also within one call.

* `Duration`: what a clock reads, the time since its origin in nanoseconds;
* `ManualClock`: a clock that is advanced (modulo 2^64) or set by hand, in milliseconds;
* `Readings`: the readings that one call takes; `Readings.still`: those of a clock that stands still
  meanwhile, as a manual clock does;
* `Epoch.elapsed`: the time since the epoch, zero when the clock stands before it and when no epoch
  was ever set.
-/

namespace RealModeTrace

/-- A time since an arbitrary fixed origin. -/
structure Duration where
  nanos : Nat
  deriving DecidableEq, Repr, Inhabited

namespace Duration

/-- The nanoseconds of a millisecond. -/
def nanosPerMilli : Nat := 1000000

/-- A number of milliseconds. -/
def ofMillis (millis : UInt64) : Duration := ⟨millis.toNat * nanosPerMilli⟩

instance : Coe UInt64 Duration := ⟨ofMillis⟩

/-- A numeral is a number of milliseconds. -/
instance (n : Nat) : OfNat Duration n := ⟨ofMillis (.ofNat n)⟩

/-- Whole milliseconds from a start to a time: none if it is not later. -/
def millisSince (start now : Duration) : Nat :=
  (now.nanos - start.nanos) / nanosPerMilli

@[simp] theorem millisSince_self (now : Duration) : millisSince now now = 0 := by
  rw [millisSince, Nat.sub_self, Nat.zero_div]

end Duration

/-- A clock that moves only when told to. -/
structure ManualClock where
  millis : UInt64 := 0
  deriving DecidableEq, Repr, Inhabited

/-- Move the clock forward. -/
def ManualClock.advance (clock : ManualClock) (millis : UInt64) : ManualClock :=
  ⟨clock.millis + millis⟩

/-- The readings of the clock during a call, in the order in which the call takes them. -/
structure Readings where
  nth : Nat → Duration

namespace Readings

/-- The clock stands still during the call. -/
def still (now : Duration) : Readings := ⟨fun _ => now⟩

instance : Coe Duration Readings := ⟨still⟩

/-- A numeral is a clock that stands still at so many milliseconds. -/
instance (n : Nat) : OfNat Readings n := ⟨still (OfNat.ofNat n)⟩

@[simp] theorem nth_still (now : Duration) (n : Nat) : (still now).nth n = now := rfl

end Readings

/-- The zero point of the elapsed time, once there is one. -/
structure Epoch where
  start : Option Duration := none
  deriving DecidableEq, Repr, Inhabited

namespace Epoch

/-- No epoch. -/
def unset : Epoch := {}

/-- The epoch at a reading. -/
def startingAt (now : Duration) : Epoch := ⟨some now⟩

/-- There is an epoch. -/
def isSet (e : Epoch) : Bool := e.start.isSome

/-- The epoch that is set, or else one at this reading. -/
def ensure (e : Epoch) (now : Duration) : Epoch :=
  if e.isSet then e else startingAt now

/-- Milliseconds since the epoch, at most as many as a word can tell. -/
def elapsed (e : Epoch) (now : Duration) : UInt64 :=
  match e.start with
  | some start => .ofNat (min (start.millisSince now) (UInt64.size - 1))
  | none => 0

@[simp] theorem elapsed_startingAt (now : Duration) : (startingAt now).elapsed now = 0 := by
  simp [startingAt, elapsed]

end Epoch

end RealModeTrace
