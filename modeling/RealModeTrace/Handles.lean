/-!
# File handles

Which name each file handle was opened with, so that reads and closes can be reported by name, and
the one read that was issued and has not completed.

* `HandleTable.record`: handles from 255 on and empty names are not stored; a later name for a
  handle replaces the earlier;
* `PendingRead.complete`: the slot is emptied whether or not the handle matches.
-/

namespace RealModeTrace

/-- Handles below this bound are tracked. -/
def handleLimit : UInt16 := 255

/-- The name shown for a handle with no recorded name. -/
def unknownFile : String := "<unknown>"

/-- The tracked handles with their names, each handle once. -/
structure HandleTable where
  entries : List (UInt16 × String) := []
  deriving DecidableEq, Repr, Inhabited

namespace HandleTable

/-- No handle. -/
def empty : HandleTable := {}

/-- The recorded name of a handle. -/
def find? (t : HandleTable) (handle : UInt16) : Option String :=
  t.entries.lookup handle

/-- The table without a handle. -/
def forget (t : HandleTable) (handle : UInt16) : HandleTable :=
  ⟨t.entries.filter fun entry => entry.1 != handle⟩

/-- A handle and a name that can be stored. -/
def trackable (handle : UInt16) (name : String) : Bool :=
  handle < handleLimit && name != ""

/-- Store the name of a handle, if it can be stored. -/
def record (t : HandleTable) (handle : UInt16) (name : String) : HandleTable :=
  if trackable handle name then ⟨(handle, name) :: (t.forget handle).entries⟩ else t

/-- The name of a handle for display. -/
def lookup (t : HandleTable) (handle : UInt16) : String :=
  (t.find? handle).getD unknownFile

/-- The number of tracked handles. -/
def size (t : HandleTable) : Nat :=
  t.entries.length

theorem find?_forget (t : HandleTable) (handle other : UInt16) :
    (t.forget handle).find? other = if other = handle then none else t.find? other := by
  obtain ⟨entries⟩ := t
  simp only [forget, find?]
  induction entries with
  | nil => simp
  | cons entry entries ih => grind

theorem find?_record (t : HandleTable) (handle other : UInt16) (name : String) :
    (t.record handle name).find? other =
      if other = handle ∧ trackable handle name then some name else t.find? other := by
  unfold record
  split
  · have h := find?_forget t handle other
    simp only [find?] at h ⊢
    grind
  · simp_all

end HandleTable

/-- A read that was issued: the handle, the count asked for, and the buffer. -/
structure ReadRequest where
  handle : UInt16
  requested : UInt16
  segment : UInt16
  offset : UInt16
  deriving DecidableEq, Repr

/-- The read that waits for its completion, if any. -/
structure PendingRead where
  slot : Option ReadRequest := none
  deriving DecidableEq, Repr, Inhabited

namespace PendingRead

/-- No read waits. -/
def none : PendingRead := {}

/-- A new request; one that waited is dropped. -/
def start (_ : PendingRead) (request : ReadRequest) : PendingRead :=
  ⟨some request⟩

/-- Empty the slot, and give back its request if that was for this handle. -/
def complete (p : PendingRead) (handle : UInt16) : PendingRead × Option ReadRequest :=
  (none, p.slot.filter (·.handle == handle))

/-- A read waits. -/
def isPending (p : PendingRead) : Bool :=
  p.slot.isSome

end PendingRead

end RealModeTrace
