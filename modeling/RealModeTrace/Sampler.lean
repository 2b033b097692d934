/-!
# Sampling

Every `stride`th instruction is logged. The counter holds the instructions since the last logged
one.
-/

namespace RealModeTrace

/-- A stride of at least one and the instructions passed since the last logged one. -/
structure Sampler where
  stride : UInt32
  counter : UInt32
  deriving DecidableEq, Repr

namespace Sampler

/-- A sampler at the start of its period; a stride of zero counts as one. -/
def ofStride (stride : UInt32) : Sampler :=
  ⟨max stride 1, 0⟩

instance : Inhabited Sampler := ⟨ofStride 1⟩

/-- Take a new stride and start its period. -/
def setStride (_ : Sampler) (stride : UInt32) : Sampler :=
  ofStride stride

/-- Take a new stride if it differs from the one in force. -/
def ensureStride (s : Sampler) (stride : UInt32) : Sampler :=
  if max stride 1 = s.stride then s else s.setStride stride

/-- One more instruction: the sampler after it, and whether it is logged. -/
def tick (s : Sampler) : Sampler × Bool :=
  if s.stride ≤ 1 then (s, true)
  else if s.counter + 1 < s.stride then ({ s with counter := s.counter + 1 }, false)
  else ({ s with counter := 0 }, true)

end Sampler

end RealModeTrace
