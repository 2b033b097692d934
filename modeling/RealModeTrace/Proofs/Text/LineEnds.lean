import RealModeTrace.Proofs.Text.Lines
import RealModeTrace.Text.Blank
import Mathlib.Data.List.TakeWhile

/-!
# Line ends

A line ends at a line feed, and a carriage return right before that belongs to its end. A text falls
into lines in just one way, in whatever order the two kinds of ends come.

* `LinesOf`: a text falls into lines; `linesOf_iff`: these are the lines that `lines` gives;
* `lines_ended`, `lines_unended`: the first line of a text, and a text with one line;
* `trimChars_pad`: blanks around a text make no difference after trimming, and
  `trimChars_dropReturn`: neither does the kind of the line end.
-/

namespace RealModeTrace.Text

/-- What ends a line. -/
inductive LineEnd
  | lf
  | crlf
  deriving DecidableEq, Repr

/-- The characters of a line end. -/
def LineEnd.text : LineEnd → String
  | .lf => "\n"
  | .crlf => "\r\n"

/-- The text falls into these lines. Each ends with LF or CRLF; the last may be without an end, if
there is something on it. -/
inductive LinesOf : String → List String → Prop
  | nil : LinesOf "" []
  | unended {line : String} (hne : line ≠ "") (hline : '\n' ∉ line.toList) : LinesOf line [line]
  | lf {line rest : String} {ls : List String} (hline : '\n' ∉ line.toList)
      (hreturn : line.toList.getLast? ≠ some '\r') (hrest : LinesOf rest ls) :
      LinesOf (line ++ LineEnd.lf.text ++ rest) (line :: ls)
  | crlf {line rest : String} {ls : List String} (hline : '\n' ∉ line.toList)
      (hrest : LinesOf rest ls) : LinesOf (line ++ LineEnd.crlf.text ++ rest) (line :: ls)

/-! ### The lines of a text -/

theorem linesOfPieces_cons (piece : List Char) {pieces : List (List Char)} (h : pieces ≠ []) :
    linesOfPieces (piece :: pieces) = dropReturn piece :: linesOfPieces pieces := by
  obtain ⟨next, rest, rfl⟩ := List.exists_cons_of_ne_nil h
  simp [linesOfPieces]

/-- A line with its end stands first among the lines. -/
theorem lines_ended {line : String} (h : '\n' ∉ line.toList) (rest : String) :
    lines (line ++ "\n" ++ rest) = String.ofList (dropReturn line.toList) :: lines rest := by
  have htext : (line ++ "\n" ++ rest).toList = line.toList ++ '\n' :: rest.toList := by
    rw [String.toList_append, String.toList_append, List.append_assoc]
    rfl
  rw [lines, htext, splitChars_append h, linesOfPieces_cons _ (splitChars_ne_nil _ _)]
  rfl

/-- A line without an end is the only one, if there is something on it. -/
theorem lines_unended {line : String} (h : '\n' ∉ line.toList) :
    lines line = if line = "" then [] else [line] := by
  rw [lines, splitChars_of_notMem h]
  by_cases hne : line = ""
  · rw [hne]
    rfl
  · have hchars : line.toList ≠ [] := fun heq => hne (String.toList_inj.1 heq)
    rw [if_neg hne]
    simp [linesOfPieces, hchars]

theorem dropReturn_of_ne {cs : List Char} (h : cs.getLast? ≠ some '\r') : dropReturn cs = cs :=
  if_neg h

@[simp] theorem dropReturn_concat (cs : List Char) : dropReturn (cs ++ ['\r']) = cs := by
  simp [dropReturn]

/-- The carriage return is the last character before the line feed. -/
theorem append_crlf (line rest : String) :
    line ++ LineEnd.crlf.text ++ rest = line ++ "\r" ++ "\n" ++ rest := by
  simp only [String.append_assoc]
  rfl

theorem newline_notMem_return {line : String} (h : '\n' ∉ line.toList) :
    '\n' ∉ (line ++ "\r").toList := by
  rw [String.toList_append, List.mem_append, not_or]
  exact ⟨h, by decide⟩

theorem LinesOf.lines_eq {s : String} {ls : List String} (h : LinesOf s ls) : lines s = ls := by
  induction h with
  | nil => rfl
  | unended hne hline => rw [lines_unended hline, if_neg hne]
  | @lf line rest ls hline hreturn hrest ih =>
    show lines (line ++ "\n" ++ rest) = line :: ls
    rw [lines_ended hline, ih, dropReturn_of_ne hreturn, String.ofList_toList]
  | @crlf line rest ls hline hrest ih =>
    have hdrop : dropReturn (line ++ "\r").toList = line.toList := by
      rw [String.toList_append]
      exact dropReturn_concat line.toList
    rw [append_crlf, lines_ended (newline_notMem_return hline), ih, hdrop, String.ofList_toList]

/-- Every text falls into lines. -/
theorem exists_linesOf (s : String) : ∃ ls, LinesOf s ls := by
  induction hn : s.toList.length using Nat.strong_induction_on generalizing s with
  | _ n ih =>
    by_cases hfeed : '\n' ∈ s.toList
    · obtain ⟨line, rest, hs, hline⟩ := List.eq_append_cons_of_mem hfeed
      have hshort : (String.ofList rest).toList.length < n := by
        rw [← hn, hs, String.toList_ofList, List.length_append, List.length_cons]
        omega
      obtain ⟨ls, hls⟩ := ih _ hshort (String.ofList rest) rfl
      by_cases hreturn : line.getLast? = some '\r'
      · obtain ⟨before, rfl⟩ := List.getLast?_eq_some_iff.1 hreturn
        have htext : s = String.ofList before ++ LineEnd.crlf.text ++ String.ofList rest := by
          apply String.toList_inj.1
          rw [hs]
          simp [LineEnd.text]
        rw [htext]
        refine ⟨String.ofList before :: ls, .crlf ?_ hls⟩
        rw [String.toList_ofList]
        exact fun hmem => hline (List.mem_append_left _ hmem)
      · have htext : s = String.ofList line ++ LineEnd.lf.text ++ String.ofList rest := by
          apply String.toList_inj.1
          rw [hs]
          simp [LineEnd.text]
        rw [htext]
        exact ⟨String.ofList line :: ls, .lf (by simpa using hline) (by simpa using hreturn) hls⟩
    · by_cases hne : s = ""
      · rw [hne]
        exact ⟨[], .nil⟩
      · exact ⟨[s], .unended hne hfeed⟩

/-- **A text falls into its lines and into no others.** -/
theorem linesOf_iff {s : String} {ls : List String} : LinesOf s ls ↔ lines s = ls := by
  constructor
  · exact LinesOf.lines_eq
  · rintro rfl
    obtain ⟨ls, hls⟩ := exists_linesOf s
    rwa [hls.lines_eq]

/-! ### Trimming -/

/-- Blanks around a text make no difference. -/
theorem trimChars_pad {before after : List Char} (hbefore : ∀ c ∈ before, isBlank c = true)
    (hafter : ∀ c ∈ after, isBlank c = true) (cs : List Char) :
    trimChars (before ++ cs ++ after) = trimChars cs := by
  have hreverse : ∀ c ∈ after.reverse, isBlank c = true := fun c hc =>
    hafter c (List.mem_reverse.1 hc)
  unfold trimChars
  rw [List.append_assoc, List.dropWhile_append_of_pos hbefore, List.dropWhile_append]
  split_ifs with hempty
  · rw [List.dropWhile_eq_nil_iff.2 hafter, List.isEmpty_iff.1 hempty]
  · rw [List.reverse_append, List.dropWhile_append_of_pos hreverse]

/-- A carriage return is a blank. -/
theorem trimChars_return (cs : List Char) : trimChars (cs ++ ['\r']) = trimChars cs := by
  have hblank : ∀ c ∈ ['\r'], isBlank c = true := List.forall_mem_singleton.2 (by decide)
  exact trimChars_pad (List.forall_mem_nil _) hblank cs

/-- It makes no difference whether a carriage return belongs to the end of a line. -/
theorem trimChars_dropReturn (cs : List Char) : trimChars (dropReturn cs) = trimChars cs := by
  by_cases hreturn : cs.getLast? = some '\r'
  · obtain ⟨before, rfl⟩ := List.getLast?_eq_some_iff.1 hreturn
    rw [dropReturn_concat, trimChars_return]
  · rw [dropReturn_of_ne hreturn]

/-- After trimming, a line stands before the others whatever ends it. -/
theorem map_trim_lines {line : String} (h : '\n' ∉ line.toList) (lineEnd : LineEnd)
    (rest : String) :
    (lines (line ++ lineEnd.text ++ rest)).map trim = trim line :: (lines rest).map trim := by
  cases lineEnd with
  | lf =>
    show (lines (line ++ "\n" ++ rest)).map trim = _
    rw [lines_ended h, List.map_cons, trim, String.toList_ofList, trimChars_dropReturn]
    rfl
  | crlf =>
    have htrim : trimChars (line ++ "\r").toList = trimChars line.toList := by
      rw [String.toList_append]
      exact trimChars_return line.toList
    rw [append_crlf, lines_ended (newline_notMem_return h), List.map_cons, trim,
      String.toList_ofList, trimChars_dropReturn, htrim]
    rfl

end RealModeTrace.Text
