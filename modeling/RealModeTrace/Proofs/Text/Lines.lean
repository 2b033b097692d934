import RealModeTrace.Text.Lines
import RealModeTrace.Text.Utf8
import Mathlib.Data.String.Basic

/-!
# Texts made of lines

A text is made of lines by ending each with a line feed. Taken apart at the line feeds it gives the
lines back exactly if none of them has one in it.

* `unlines`: the text of some lines;
* `newlines`: the line feeds within some lines;
* `PiecesOf`, `piecesOf_iff`: the pieces of a text between the separators;
* `length_splitAt_unlines`: a text of lines has a piece for each line and for each line feed within
  one, and an empty piece at the end;
* `splitAt_unlines`: the lines are given back.
-/

namespace RealModeTrace.Text

/-- The text of some lines, each with its line end. -/
def unlines (lines : List String) : String :=
  String.join (lines.map (· ++ "\n"))

/-- The number of line feeds within some lines. -/
def newlines (lines : List String) : Nat :=
  (lines.flatMap String.toList).count '\n'

@[simp] theorem unlines_nil : unlines [] = "" := rfl

theorem unlines_cons (line : String) (lines : List String) :
    unlines (line :: lines) = line ++ "\n" ++ unlines lines := by
  rw [unlines, List.map_cons, String.join_cons]
  rfl

theorem utf8_append (s t : String) : utf8 (s ++ t) = utf8 s ++ utf8 t :=
  String.toByteArray_append

/-! ### Pieces -/

/-- One piece more than there are separators. -/
theorem length_splitChars (sep : Char) (cs : List Char) :
    (splitChars sep cs).length = cs.count sep + 1 := by
  induction cs with
  | nil => rfl
  | cons c cs ih =>
    rw [splitChars_cons, List.count_cons]
    split_ifs with hc hcs
    · rw [List.length_cons, ih]
    · exact absurd (beq_iff_eq.2 hc) hcs
    · exact absurd (beq_iff_eq.1 ‹_›) hc
    · obtain ⟨piece, rest, h⟩ := List.exists_cons_of_ne_nil (splitChars_ne_nil sep cs)
      rw [← ih, h]
      rfl

/-- What stands before the first separator is the first piece. -/
theorem splitChars_append {sep : Char} {cs : List Char} (h : sep ∉ cs) (ds : List Char) :
    splitChars sep (cs ++ sep :: ds) = cs :: splitChars sep ds := by
  induction cs with
  | nil => rw [List.nil_append, splitChars_cons, if_pos rfl]
  | cons c cs ih =>
    rw [List.mem_cons, not_or] at h
    rw [List.cons_append, splitChars_cons, if_neg (Ne.symm h.1), ih h.2]
    rfl

/-- Without a separator there is one piece. -/
theorem splitChars_of_notMem {sep : Char} {cs : List Char} (h : sep ∉ cs) :
    splitChars sep cs = [cs] := by
  induction cs with
  | nil => rfl
  | cons c cs ih =>
    rw [List.mem_cons, not_or] at h
    rw [splitChars_cons, if_neg (Ne.symm h.1), ih h.2]
    rfl

/-- The pieces are what stands between the separators of a text. -/
structure PiecesOf (sep : Char) (s : String) (pieces : List String) : Prop where
  ne_nil : pieces ≠ []
  sep_notMem : ∀ piece ∈ pieces, sep ∉ piece.toList
  joined : [sep].intercalate (pieces.map String.toList) = s.toList

/-- No piece has a separator in it. -/
theorem sep_notMem_of_mem_splitChars {sep : Char} {cs piece : List Char}
    (h : piece ∈ splitChars sep cs) : sep ∉ piece := by
  induction cs generalizing piece with
  | nil =>
    rw [splitChars_nil, List.mem_singleton] at h
    rw [h]
    exact List.not_mem_nil
  | cons c cs ih =>
    rw [splitChars_cons] at h
    split_ifs at h with hc
    · rcases List.mem_cons.1 h with rfl | hmem
      · exact List.not_mem_nil
      · exact ih hmem
    · obtain ⟨first, rest, hsplit⟩ := List.exists_cons_of_ne_nil (splitChars_ne_nil sep cs)
      rw [hsplit] at h ih
      rcases List.mem_cons.1 h with rfl | hmem
      · rw [List.mem_cons, not_or]
        exact ⟨Ne.symm hc, ih List.mem_cons_self⟩
      · exact ih (List.mem_cons_of_mem first hmem)

/-- Pieces without separators that are joined by the separator are taken apart again. -/
theorem splitChars_intercalate {sep : Char} {pieces : List (List Char)} (hne : pieces ≠ [])
    (h : ∀ piece ∈ pieces, sep ∉ piece) : splitChars sep ([sep].intercalate pieces) = pieces := by
  induction pieces with
  | nil => exact absurd rfl hne
  | cons piece rest ih => cases rest with
    | nil =>
      rw [List.intercalate_singleton]
      exact splitChars_of_notMem (h piece List.mem_cons_self)
    | cons next rest =>
      have hrest := ih (List.cons_ne_nil next rest) fun p hp => h p (List.mem_cons_of_mem piece hp)
      rw [List.intercalate_cons_cons, List.append_assoc, List.singleton_append,
        splitChars_append (h piece List.mem_cons_self), hrest]

/-- A text has its pieces and no others. -/
theorem piecesOf_iff {sep : Char} {s : String} {pieces : List String} :
    PiecesOf sep s pieces ↔ splitAt sep s = pieces := by
  constructor
  · rintro ⟨hne, hsep, hjoined⟩
    rw [splitAt, ← hjoined, splitChars_intercalate (by simpa using hne) (by simpa using hsep)]
    simp
  · rintro rfl
    refine ⟨by simp [splitAt, splitChars_ne_nil], fun piece hpiece => ?_, ?_⟩
    · obtain ⟨chars, hchars, rfl⟩ := List.mem_map.1 hpiece
      rw [String.toList_ofList]
      exact sep_notMem_of_mem_splitChars hchars
    · rw [splitAt, List.map_map]
      simp [Function.comp_def, intercalate_splitChars]

theorem count_unlines (lines : List String) :
    (unlines lines).toList.count '\n' = lines.length + newlines lines := by
  induction lines with
  | nil => rfl
  | cons line lines ih =>
    have hfeed : "\n".toList.count '\n' = 1 := rfl
    rw [unlines_cons, String.toList_append, String.toList_append, List.count_append,
      List.count_append, hfeed, ih, newlines, newlines, List.flatMap_cons, List.count_append,
      List.length_cons]
    omega

/-- A piece for each line and for each line feed within one, and an empty piece at the end. -/
theorem length_splitAt_unlines (lines : List String) :
    (splitAt '\n' (unlines lines)).length = lines.length + newlines lines + 1 := by
  rw [splitAt, List.length_map, length_splitChars, count_unlines]

/-- Lines without line feeds are given back. -/
theorem splitAt_unlines {lines : List String} (h : ∀ line ∈ lines, '\n' ∉ line.toList) :
    splitAt '\n' (unlines lines) = lines ++ [""] := by
  induction lines with
  | nil => rfl
  | cons line lines ih =>
    have htext : (unlines (line :: lines)).toList =
        line.toList ++ '\n' :: (unlines lines).toList := by
      rw [unlines_cons, String.toList_append, String.toList_append, List.append_assoc]
      rfl
    rw [splitAt, htext, splitChars_append (h line List.mem_cons_self), List.map_cons,
      String.ofList_toList, List.cons_append]
    exact congrArg _ (ih fun l hl => h l (List.mem_cons_of_mem line hl))

end RealModeTrace.Text
