import RealModeTrace.Text.Utf8

/-!
# Bounded line buffer

Every trace line is rendered piece by piece into a buffer with a capacity in UTF-8 bytes. The
buffer keeps the longest prefix of what was written that ends between two characters and fits;
once something was dropped, all that follows is dropped too.

* `clip n`: that prefix, on characters;
* `LineBuffer`, `write`, `writeAll`, `reset`;
* `render`: reset the buffer and write pieces.
-/

namespace RealModeTrace

/-- Capacity of an ordinary trace line, in bytes. -/
def lineCapacity : Nat := 512

/-- Capacity of a line with file data, in bytes: three per byte shown and room for the head. -/
def dataLineCapacity : Nat := 512 * 3 + 64

/-- The number of UTF-8 bytes of a character sequence. -/
def byteLength : List Char → Nat
  | [] => 0
  | c :: cs => c.utf8Size + byteLength cs

/-- The longest prefix of at most `n` bytes. -/
def clip : Nat → List Char → List Char
  | _, [] => []
  | n, c :: cs => if c.utf8Size ≤ n then c :: clip (n - c.utf8Size) cs else []

/-- A text of bounded size, and whether anything was dropped from it. -/
structure LineBuffer where
  text : String
  capacity : Nat
  truncated : Bool
  deriving DecidableEq, Repr

namespace LineBuffer

/-- An empty buffer of a given capacity. -/
def ofCapacity (capacity : Nat) : LineBuffer :=
  ⟨"", capacity, false⟩

instance : Inhabited LineBuffer := ⟨ofCapacity lineCapacity⟩

/-- Forget the text and take a new capacity. -/
def reset (_ : LineBuffer) (capacity : Nat) : LineBuffer :=
  ofCapacity capacity

/-- The size of the text in bytes. -/
def size (b : LineBuffer) : Nat :=
  b.text.utf8ByteSize

/-- Nothing is in the buffer. -/
def isEmpty (b : LineBuffer) : Bool :=
  b.size == 0

/-- The bytes that still fit. -/
def remaining (b : LineBuffer) : Nat :=
  b.capacity - b.size

/-- Append a text, or the part of it that fits. -/
def write (b : LineBuffer) (s : String) : LineBuffer :=
  if b.truncated then b
  else if s.utf8ByteSize ≤ b.remaining then { b with text := b.text ++ s }
  else { b with text := b.text ++ String.ofList (clip b.remaining s.toList), truncated := true }

/-- Append texts one after the other. -/
def writeAll (b : LineBuffer) (pieces : List String) : LineBuffer :=
  pieces.foldl write b

/-- The buffer after a new line made of pieces. -/
def render (b : LineBuffer) (capacity : Nat) (pieces : List String) : LineBuffer :=
  (b.reset capacity).writeAll pieces

@[simp] theorem writeAll_nil (b : LineBuffer) : b.writeAll [] = b := rfl

@[simp] theorem writeAll_cons (b : LineBuffer) (s : String) (pieces : List String) :
    b.writeAll (s :: pieces) = (b.write s).writeAll pieces := rfl

end LineBuffer

end RealModeTrace
