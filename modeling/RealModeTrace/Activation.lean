/-!
# Activation

Tracing is active or inactive, and while it is active the number of programs loaded and not yet
exited is its depth. An exit that brings the depth to zero or below switches tracing off. A program
that stays resident does not return to its parent, so it has no operation here.

* `activate`, `pushExec`, `terminate`, `deactivate`.
-/

namespace RealModeTrace

/-- The result of an exit while active. -/
structure ExitOutcome where
  /-- The depth after the exit; `-1` if no traced load belongs to it. -/
  remaining : Int
  /-- Whether this exit switched tracing off. -/
  deactivated : Bool
  deriving DecidableEq, Repr

/-- Whether trace lines are being produced, and the depth. -/
structure Activation where
  active : Bool := false
  depth : Int := 0
  deriving DecidableEq, Repr, Inhabited

namespace Activation

/-- Inactive at depth zero. -/
def off : Activation := {}

/-- Switch on at depth zero; an active state is left alone. -/
def activate (a : Activation) : Activation :=
  if a.active then a else ⟨true, 0⟩

/-- A program was loaded. -/
def pushExec (a : Activation) : Activation :=
  if a.active then { a with depth := a.depth + 1 } else a

/-- Switch off. -/
def deactivate (_ : Activation) : Activation :=
  off

/-- A program exited: the state after it, and what it did if tracing was active. -/
def terminate (a : Activation) : Activation × Option ExitOutcome :=
  if a.active then
    let remaining := a.depth - 1
    if remaining ≤ 0 then (a.deactivate, some ⟨remaining, true⟩)
    else ({ a with depth := remaining }, some ⟨remaining, false⟩)
  else (a, none)

@[simp] theorem activate_active (a : Activation) : a.activate.active = true := by
  unfold activate; split <;> simp_all

@[simp] theorem deactivate_eq (a : Activation) : a.deactivate = off := rfl

end Activation

end RealModeTrace
