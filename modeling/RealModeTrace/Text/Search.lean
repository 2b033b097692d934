/-!
# Search

* `occursIn`: a text stands somewhere in another.
-/

namespace RealModeTrace.Text

/-- The characters `needle` stand next to each other somewhere in a sequence. -/
def occursInChars (needle : List Char) : List Char → Bool
  | [] => needle == []
  | c :: cs => needle.isPrefixOf (c :: cs) || occursInChars needle cs

/-- The text stands somewhere in another. -/
def occursIn (needle s : String) : Bool :=
  occursInChars needle.toList s.toList

@[simp] theorem occursInChars_nil (cs : List Char) : occursInChars [] cs = true := by
  cases cs <;> simp [occursInChars]

/-- Whatever stands before and after it, a text occurs. -/
theorem occursInChars_append (as needle bs : List Char) :
    occursInChars needle (as ++ needle ++ bs) = true := by
  induction as with
  | nil =>
    cases needle with
    | nil => simp
    | cons c cs => simp [occursInChars, List.isPrefixOf_iff_prefix]
  | cons a as ih => simp [occursInChars] at ih ⊢; exact .inr ih

end RealModeTrace.Text
