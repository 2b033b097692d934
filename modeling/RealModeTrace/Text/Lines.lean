/-!
# Fields and lines

* `splitAt sep`: the pieces of a text between the occurrences of a separator, one more than there
  are separators;
* `lines`: the lines of a text. A line ends at LF or CRLF, a CR alone ends none, and a text that
  ends with a line end has no empty line after it.
-/

namespace RealModeTrace.Text

/-- Put a character in front of the first piece. -/
def consPiece (c : Char) : List (List Char) → List (List Char)
  | [] => [[c]]
  | piece :: rest => (c :: piece) :: rest

/-- The pieces between the occurrences of `sep`. -/
def splitChars (sep : Char) (cs : List Char) : List (List Char) :=
  cs.foldr (fun c pieces => if c = sep then [] :: pieces else consPiece c pieces) [[]]

/-- The pieces of a text between the occurrences of `sep`. -/
def splitAt (sep : Char) (s : String) : List String :=
  (splitChars sep s.toList).map String.ofList

/-- A line without the CR that belongs to its line end. -/
def dropReturn (cs : List Char) : List Char :=
  if cs.getLast? = some '\r' then cs.dropLast else cs

/-- The lines from the pieces between line feeds: the last piece has no line end of its own. -/
def linesOfPieces (pieces : List (List Char)) : List (List Char) :=
  pieces.dropLast.map dropReturn ++ pieces.getLast?.toList.filter (· ≠ [])

/-- The lines of a text. -/
def lines (s : String) : List String :=
  (linesOfPieces (splitChars '\n' s.toList)).map String.ofList

@[simp] theorem splitChars_nil (sep : Char) : splitChars sep [] = [[]] := rfl

theorem splitChars_cons (sep c : Char) (cs : List Char) :
    splitChars sep (c :: cs) =
      if c = sep then [] :: splitChars sep cs else consPiece c (splitChars sep cs) := rfl

theorem splitChars_ne_nil (sep : Char) (cs : List Char) : splitChars sep cs ≠ [] := by
  cases cs with
  | nil => simp
  | cons c cs =>
    rw [splitChars_cons]
    split
    · simp
    · cases splitChars sep cs <;> simp [consPiece]

/-- The pieces joined by the separator are the text. -/
theorem intercalate_splitChars (sep : Char) (cs : List Char) :
    [sep].intercalate (splitChars sep cs) = cs := by
  induction cs with
  | nil => rfl
  | cons c cs ih =>
    obtain ⟨piece, rest, h⟩ := List.exists_cons_of_ne_nil (splitChars_ne_nil sep cs)
    rw [h] at ih
    rw [splitChars_cons, h]
    split
    · subst_vars; cases rest <;> simp_all [List.intercalate]
    · subst ih; cases rest <;> simp [consPiece, List.intercalate]

end RealModeTrace.Text
