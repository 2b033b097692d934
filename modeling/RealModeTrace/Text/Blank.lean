/-!
# Blank characters

A character is blank when it has the Unicode property White_Space. Option values, exclusion
tokens, log targets and script lines are trimmed of blanks on both sides.

* `isBlank`: the property, by ranges of code points;
* `trim`: a text without the blanks at its ends.
-/

namespace RealModeTrace.Text

/-- The ranges of code points with the property White_Space, both ends included. -/
def blankRanges : List (Nat × Nat) :=
  [(0x09, 0x0D), (0x20, 0x20), (0x85, 0x85), (0xA0, 0xA0), (0x1680, 0x1680), (0x2000, 0x200A),
    (0x2028, 0x2029), (0x202F, 0x202F), (0x205F, 0x205F), (0x3000, 0x3000)]

/-- A character with the property White_Space. -/
def isBlank (c : Char) : Bool :=
  blankRanges.any fun range => range.1 ≤ c.toNat && c.toNat ≤ range.2

/-- The characters without the blanks at both ends. -/
def trimChars (cs : List Char) : List Char :=
  ((cs.dropWhile isBlank).reverse.dropWhile isBlank).reverse

/-- The text without the blanks at both ends. -/
def trim (s : String) : String :=
  String.ofList (trimChars s.toList)

@[simp] theorem toList_trim (s : String) : (trim s).toList = trimChars s.toList := by
  simp [trim]

@[simp] theorem trimChars_nil : trimChars [] = [] := rfl

/-- Nothing is trimmed from a text whose ends are not blank. -/
theorem trimChars_eq_self {c d : Char} {cs : List Char} (hc : isBlank c = false)
    (hd : isBlank d = false) : trimChars (c :: cs ++ [d]) = c :: cs ++ [d] := by
  simp [trimChars, hc, hd]

end RealModeTrace.Text
