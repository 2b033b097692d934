import RealModeTrace.Toml.Document
import RealModeTrace.Proofs.Toml.Scalars

/-!
# Reading sections back

A section of a document with one assignment to a line, each to a key of its own, is read as the
table of its values.

* `Bare`: a key that needs no quotes;
* `readStatement_assign`, `readStatement_header`: one line;
* `readStatements_lines`: all lines;
* `tableOfText?_section`: the table of the document.
-/

namespace RealModeTrace.Toml

open Text

variable {limit : Nat} {name : String} {c : Char} {cs r t : List Char} {v : Value}

/-! ### Keys -/

/-- The key can stand without quotes. -/
structure Bare (name : String) : Prop where
  ne_nil : name.toList ≠ []
  all_bare : ∀ c ∈ name.toList, isBare c = true

/-- A character of a bare key is none of those that mean something else at the head of a line. -/
theorem ne_of_isBare {d : Char} (hc : isBare c = true) (hd : isBare d = false) : c ≠ d := by
  rintro rfl
  exact Bool.false_ne_true (hd.symm.trans hc)

theorem isSpace_of_isBare (hc : isBare c = true) : isSpace c = false := by
  simp [isSpace, ne_of_isBare hc (d := ' ') (by decide), ne_of_isBare hc (d := '\t') (by decide)]

theorem Bare.toList_eq (h : Bare name) :
    ∃ c cs, name.toList = c :: cs ∧ isBare c = true ∧ ∀ d ∈ cs, isBare d = true := by
  obtain ⟨c, cs, hcs⟩ := List.exists_cons_of_ne_nil h.ne_nil
  have hall := h.all_bare
  rw [hcs] at hall
  exact ⟨c, cs, hcs, List.forall_mem_cons.1 hall⟩

/-- A bare key is read up to what cannot belong to it. -/
theorem readKey_bare (h : Bare name) (ht : ∀ c ∈ t.head?, isBare c = false)
    (hpoint : (skipSpaces t).head? ≠ some '.') :
    readKey (name.toList ++ t) = some ([name], skipSpaces t) := by
  obtain ⟨c, cs, hname, hc, hcs⟩ := h.toList_eq
  have hpart : readKeyPart (c :: (cs ++ t)) = some (name.toList, t) := by
    have htake : cs.takeWhile isBare = cs := List.takeWhile_eq_self_iff.2 hcs
    have hdrop : cs.dropWhile isBare = [] := List.dropWhile_eq_nil_iff.2 hcs
    rw [readKeyPart, if_pos hc, takeWhile_append_of_head ht, dropWhile_append_of_head ht, htake,
      hdrop, hname, List.nil_append]
    · exact ne_of_isBare hc (by decide)
    · exact ne_of_isBare hc (by decide)
  rw [readKey, keyLimit, readKeyParts, hname, List.cons_append,
    skipSpaces_of_head (isSpace_of_isBare hc), hpart]
  simp only [Option.bind_eq_bind, Option.bind_some, String.ofList_toList]
  split
  · next heq =>
    rw [heq] at hpoint
    exact absurd rfl hpoint
  · rfl

/-! ### Lines -/

theorem endLine_break (r : List Char) : endLine ('\n' :: r) = some r := rfl

theorem readStatement_header (h : Bare name) (r : List Char) :
    readStatement limit ('[' :: (name.toList ++ ']' :: '\n' :: r)) =
      some (some (.table [name]), '\n' :: r) := by
  have hkey := readKey_bare h (t := ']' :: '\n' :: r) (fun c hc => by cases hc; decide)
    (by rw [skipSpaces_of_head (by decide)]; simp)
  obtain ⟨c, cs, hname, hc, -⟩ := h.toList_eq
  have hbracket : c ≠ '[' := ne_of_isBare hc (by decide)
  rw [skipSpaces_of_head (by decide)] at hkey
  rw [hname, List.cons_append] at hkey ⊢
  rw [readStatement, skipSpaces_of_head (by decide)]
  simp [hbracket, hkey, expect]

theorem readStatement_assign (h : Bare name) {text : List Char} (hv : Spells text v)
    (r : List Char) :
    readStatement limit (name.toList ++ ' ' :: '=' :: ' ' :: (text ++ '\n' :: r)) =
      some (some (.assign [name] v), '\n' :: r) := by
  have hskip : ∀ t, skipSpaces (' ' :: '=' :: t) = '=' :: t := fun t => rfl
  have hkey := readKey_bare h (t := ' ' :: '=' :: ' ' :: (text ++ '\n' :: r))
    (fun c hc => by cases hc; decide) (by rw [hskip]; simp)
  obtain ⟨c, cs, hname, hc, -⟩ := h.toList_eq
  have hbracket : c ≠ '[' := ne_of_isBare hc (by decide)
  have hcomment : c ≠ '#' := ne_of_isBare hc (by decide)
  have hfeed : c ≠ '\n' := ne_of_isBare hc (by decide)
  have hreturn : c ≠ '\r' := ne_of_isBare hc (by decide)
  rw [hskip] at hkey
  rw [hname, List.cons_append] at hkey ⊢
  rw [readStatement, skipSpaces_of_head (isSpace_of_isBare hc)]
  have hblank : skipSpaces (' ' :: (text ++ '\n' :: r)) = skipSpaces (text ++ '\n' :: r) := rfl
  simp [hbracket, hcomment, hfeed, hreturn, hkey, expect, hblank, hv limit r]

theorem readStatements_succ {statement : Option Statement} (hne : cs ≠ [])
    (h : readStatement limit cs = some (statement, '\n' :: r)) (lines : Nat) :
    readStatements limit (lines + 1) cs =
      (readStatements limit lines r).map (statement.toList ++ ·) := by
  rw [readStatements, h]
  · cases hrest : readStatements limit lines r <;> simp [endLine_break, hrest]
  · exact hne

/-! ### Assignments on lines of their own -/

section Lines

variable {ι : Type} {key : ι → String} {text : ι → List Char} {value : ι → Value} {lines : Nat}

/-- The line of an assignment. -/
def assignLine (key : String) (text : List Char) : List Char :=
  key.toList ++ ' ' :: '=' :: ' ' :: (text ++ ['\n'])

theorem readStatements_lines {is : List ι} (hlines : is.length ≤ lines)
    (hkey : ∀ i ∈ is, Bare (key i)) (hvalue : ∀ i ∈ is, Spells (text i) (value i)) :
    readStatements limit lines (is.flatMap fun i => assignLine (key i) (text i)) =
      some (is.map fun i => .assign [key i] (value i)) := by
  induction is generalizing lines with
  | nil => simp [readStatements]
  | cons i is ih =>
    obtain ⟨hi, hkeys⟩ := List.forall_mem_cons.1 hkey
    obtain ⟨hv, hvalues⟩ := List.forall_mem_cons.1 hvalue
    rw [List.length_cons] at hlines
    obtain ⟨lines, rfl⟩ : ∃ k, lines = k + 1 := ⟨lines - 1, by omega⟩
    have hread := fun limit => @readStatement_assign limit _ _ hi _ hv
      (is.flatMap fun i => assignLine (key i) (text i))
    have hline : assignLine (key i) (text i) ++ (is.flatMap fun i => assignLine (key i) (text i)) =
        (key i).toList ++ ' ' :: '=' :: ' ' :: (text i ++
          '\n' :: is.flatMap fun i => assignLine (key i) (text i)) := by
      simp [assignLine]
    rw [List.flatMap_cons, hline, readStatements_succ (by simp) (hread limit),
      ih (by omega) hkeys hvalues]
    rfl

/-! ### The table of a section -/

theorem alter_new {key : String} {f : Option Item → Option Item} {item : Item} {entries : Entries}
    (h : key ∉ entries.map Prod.fst) (hf : f none = some item) :
    Entries.alter key f entries = some (entries ++ [(key, item)]) := by
  induction entries with
  | nil => rw [Entries.alter, hf]; rfl
  | cons entry entries ih =>
    rw [List.map_cons, List.mem_cons, not_or] at h
    rw [Entries.alter, if_neg (Ne.symm h.1), ih h.2]
    rfl

/-- The draft of a document with one section. -/
def sectionDraft (heading : String) (entries : Entries) : Draft :=
  ⟨[(heading, .table .headed entries)], [heading]⟩

theorem add_header (heading : String) :
    Draft.add {} (.table [heading]) = some (sectionDraft heading []) := rfl

theorem add_assign {heading key : String} {entries : Entries} (h : key ∉ entries.map Prod.fst)
    (v : Value) : (sectionDraft heading entries).add (.assign [key] v) =
      some (sectionDraft heading (entries ++ [(key, .value v)])) := by
  have hassign : Entries.assign [key] v entries = some (entries ++ [(key, .value v)]) :=
    alter_new h rfl
  simp [Draft.add, sectionDraft, Entries.within, Entries.alter, hassign]

theorem foldlM_add {heading : String} {entries : Entries} {is : List ι}
    (h : (entries.map Prod.fst ++ is.map key).Nodup) :
    (is.map fun i => Statement.assign [key i] (value i)).foldlM Draft.add
        (sectionDraft heading entries) =
      some (sectionDraft heading (entries ++ is.map fun i => (key i, .value (value i)))) := by
  induction is generalizing entries with
  | nil => simp
  | cons i is ih =>
    have hnew : key i ∉ entries.map Prod.fst := fun hmem =>
      (List.nodup_append.1 h).2.2 _ hmem _ (List.mem_map_of_mem List.mem_cons_self) rfl
    have hnodup : ((entries ++ [(key i, Item.value (value i))]).map Prod.fst ++
        is.map key).Nodup := by
      simpa using h
    rw [List.map_cons, List.foldlM_cons, add_assign hnew]
    simp [ih hnodup]

theorem entriesToValues_map (is : List ι) :
    entriesToValues (is.map fun i => (key i, .value (value i))) =
      is.map fun i => (key i, value i) := by
  induction is with
  | nil => rfl
  | cons i is ih => rw [List.map_cons, entriesToValues, ih, Item.toValue, List.map_cons]

theorem entriesWithDates?_map {is : List ι} (h : ∀ i ∈ is, (value i).withDates? = some (value i)) :
    entriesWithDates? (is.map fun i => (key i, value i)) =
      some (is.map fun i => (key i, value i)) := by
  induction is with
  | nil => rfl
  | cons i is ih =>
    obtain ⟨hi, his⟩ := List.forall_mem_cons.1 h
    simp [entriesWithDates?, hi, ih his]

theorem not_bare_dateKey : ¬Bare dateKey := fun h =>
  absurd (h.all_bare '$' (by decide)) (by decide)

/-- A table with bare keys stands for no date. -/
theorem withDates?_table {is : List ι} (hkey : ∀ i ∈ is, Bare (key i))
    (hdates : ∀ i ∈ is, (value i).withDates? = some (value i)) :
    (Value.table (is.map fun i => (key i, value i))).withDates? =
      some (.table (is.map fun i => (key i, value i))) := by
  have hhead : (is.map fun i => (key i, value i)).head?.any (·.1 == dateKey) = false := by
    cases is with
    | nil => rfl
    | cons i is =>
      refine beq_false_of_ne fun h : key i = dateKey => not_bare_dateKey ?_
      rw [← h]
      exact hkey i List.mem_cons_self
  rw [Value.withDates?, hhead, if_neg Bool.false_ne_true, entriesWithDates?_map hdates]
  rfl

theorem length_le_lines (is : List ι) :
    is.length ≤ (is.flatMap fun i => assignLine (key i) (text i)).length := by
  induction is with
  | nil => exact Nat.le_refl 0
  | cons i is ih =>
    rw [List.flatMap_cons, List.length_append, List.length_cons, assignLine]
    simp only [List.length_append, List.length_cons]
    omega

/-- **Sections are read back.** A document with one section, in which each line assigns a value to a
bare key of its own, has the table of these values under the heading. -/
theorem tableOfText?_section {s heading : String} {is : List ι}
    (hs : s.toList = '[' :: (heading.toList ++ ']' :: '\n' ::
      is.flatMap fun i => assignLine (key i) (text i)))
    (hheading : Bare heading) (hkey : ∀ i ∈ is, Bare (key i)) (hnodup : (is.map key).Nodup)
    (hvalue : ∀ i ∈ is, Spells (text i) (value i))
    (hdates : ∀ i ∈ is, (value i).withDates? = some (value i)) :
    tableOfText? s = some [(heading, .table (is.map fun i => (key i, value i)))] := by
  have hread : ∀ {limit lines : Nat}, is.length < lines → readStatements limit lines s.toList =
      some (.table [heading] :: is.map fun i => .assign [key i] (value i)) := by
    intro limit lines hlt
    obtain ⟨lines, rfl⟩ : ∃ k, lines = k + 1 := ⟨lines - 1, by omega⟩
    rw [hs, readStatements_succ (List.cons_ne_nil _ _) (readStatement_header hheading _),
      readStatements_lines (by omega) hkey hvalue]
    rfl
  have hstatements : Statement.ofText? s =
      some (.table [heading] :: is.map fun i => .assign [key i] (value i)) := by
    have hmark : skipMark s.toList = s.toList := by rw [hs]; rfl
    have hlength : is.length ≤ (is.flatMap fun i => assignLine (key i) (text i)).length :=
      length_le_lines is
    rw [Statement.ofText?, hmark]
    refine hread ?_
    rw [hs]
    simp only [List.length_cons, List.length_append]
    omega
  have hdraft : (is.map fun i => Statement.assign [key i] (value i)).foldlM Draft.add
      (sectionDraft heading []) =
        some (sectionDraft heading (is.map fun i => (key i, .value (value i)))) :=
    foldlM_add (by simpa using hnodup)
  have htable : entriesWithDates? (entriesToValues
      (sectionDraft heading (is.map fun i => (key i, Item.value (value i)))).entries) =
      some [(heading, .table (is.map fun i => (key i, value i)))] := by
    simp [sectionDraft, entriesToValues, Item.toValue, entriesToValues_map, entriesWithDates?,
      withDates?_table hkey hdates]
  simp [tableOfText?, hstatements, add_header, hdraft, htable]

end Lines

end RealModeTrace.Toml
