import RealModeTrace.Toml.Quoted
import RealModeTrace.Proofs.Text.Numerals

/-!
# Reading quoted texts back

Every form of quotes gives the text back that it was made for, and each text has such a form.

* `escapeChar_cases`: a character stands for itself, or it has an escape that the reader knows;
* `closing_append`: where the reader finds the closing quotes behind a run of quotes in the text;
* `Form.Holds`: what a form can hold, and `holds_formOf`: the first form that can hold a text does;
* `readQuoted_quoteAs`: a text in a form that holds it is read back.
-/

namespace RealModeTrace.Toml

open Text

variable {c q : Char} {cs r text : List Char} {n run : Nat}

/-! ### Escapes -/

theorem readCodePoint_hexDigits (h : c.toNat < 128) (r : List Char) :
    readCodePoint 4 ('0' :: '0' :: hexDigit (c.toNat / 16) :: hexDigit (c.toNat % 16) :: r) =
      some (c, r) := by
  obtain ⟨hall, hvalue⟩ := natOfDigits_sixteen (by omega)
    (digitValue_hexDigit (c.toNat / 16) (by omega)) (digitValue_hexDigit (c.toNat % 16) (by omega))
  have hvalid : c.toNat.isValidChar := Or.inl (by omega)
  simp only [readCodePoint, List.take_succ_cons, List.take_zero, List.drop_succ_cons,
    List.drop_zero, hall, hvalue, if_pos hvalid, Char.ofNat_toNat]
  rfl

/-- A character other than a line feed or a quote stands for itself, or it has an escape that the
reader knows and does not take for the end of a line. -/
theorem escapeChar_cases (hquote : c ≠ '"') (hbreak : c ≠ '\n') :
    escapeChar c = [c] ∧ c ≠ '\\' ∧ isPlain c = true ∨
      ∃ e, escapeChar c = '\\' :: e ∧
        ∀ r, readEscape (e ++ r) = some (c, r) ∧ readJoin (e ++ r) = none := by
  unfold escapeChar
  split_ifs with hb ht hf hr hslash hcontrol
  -- the escapes of one letter, then the one by number, then characters that stand for themselves
  any_goals
    subst_vars
    exact Or.inr ⟨_, rfl, fun r => ⟨rfl, rfl⟩⟩
  · have hlow : c.toNat < 128 := by
      rw [Bool.or_eq_true, decide_eq_true_iff, decide_eq_true_iff] at hcontrol
      rcases hcontrol with hlow | rfl
      · omega
      · decide
    exact Or.inr ⟨_, rfl, fun r => ⟨readCodePoint_hexDigits hlow r, rfl⟩⟩
  · rw [Bool.or_eq_true, not_or, decide_eq_true_iff, decide_eq_true_iff] at hcontrol
    have hspace : ' ' ≤ c := Nat.le_of_not_lt hcontrol.1
    exact Or.inl ⟨rfl, hslash, by simp [isPlain, hspace, hcontrol.2]⟩

theorem head_escapeChar (hquote : c ≠ '"') (hbreak : c ≠ '\n') :
    ∃ d e, escapeChar c = d :: e ∧ d ≠ '"' ∧ d ≠ '\n' ∧ d ≠ '\r' := by
  rcases escapeChar_cases hquote hbreak with ⟨h, -, hplain⟩ | ⟨e, h, -⟩
  · refine ⟨c, [], h, hquote, hbreak, ?_⟩
    rintro rfl
    exact absurd hplain (by decide)
  · exact ⟨'\\', e, h, by decide, by decide, by decide⟩

/-! ### Texts on one line -/

theorem readBasic_escape {e : List Char} (h : readEscape e = some (c, r)) :
    readBasic ('\\' :: e) = (readBasic r).map (consText c) := by
  rw [readBasic, if_neg (by decide), if_pos rfl]
  split
  · next hread =>
    rw [h] at hread
    cases hread
    rfl
  · next hread => simp [h] at hread

theorem readBasic_plain (hquote : c ≠ '"') (hslash : c ≠ '\\') (hplain : isPlain c = true) :
    readBasic (c :: r) = (readBasic r).map (consText c) := by
  rw [readBasic, if_neg hquote, if_neg hslash, if_pos hplain]

theorem readBasic_escapeChar (hquote : c ≠ '"') (hbreak : c ≠ '\n') (r : List Char) :
    readBasic (escapeChar c ++ r) = (readBasic r).map (consText c) := by
  rcases escapeChar_cases hquote hbreak with ⟨h, hslash, hplain⟩ | ⟨e, h, hread⟩
  · rw [h]
    exact readBasic_plain hquote hslash hplain
  · rw [h]
    exact readBasic_escape (hread r).1

theorem readBasic_escapeLine_cons (c : Char) (cs r : List Char) :
    readBasic (escapeLine (c :: cs) ++ r) = (readBasic (escapeLine cs ++ r)).map (consText c) := by
  rw [escapeLine, List.flatMap_cons, List.append_assoc]
  split_ifs with hbreak hquote
  · rw [hbreak]
    exact readBasic_escape rfl
  · rw [hquote]
    exact readBasic_escape rfl
  · exact readBasic_escapeChar hquote hbreak _

theorem readBasic_escapeLine (cs r : List Char) :
    readBasic (escapeLine cs ++ '"' :: r) = some (cs, r) := by
  induction cs with
  | nil => rw [escapeLine, List.flatMap_nil, List.nil_append, readBasic, if_pos rfl]
  | cons c cs ih =>
    rw [readBasic_escapeLine_cons, ih]
    rfl

theorem readLiteral_append (h : ∀ c ∈ cs, isPlain c = true ∧ c ≠ '\'') (r : List Char) :
    readLiteral (cs ++ '\'' :: r) = some (cs, r) := by
  induction cs with
  | nil => rfl
  | cons c cs ih =>
    obtain ⟨⟨hplain, hquote⟩, hcs⟩ := List.forall_mem_cons.1 h
    rw [List.cons_append, readLiteral, if_neg hquote, if_pos hplain, ih hcs]
    rfl

/-! ### Runs of quotes -/

/-- Up to two quotes before the closing ones belong to the text. -/
theorem closing_replicate {k : Nat} (hk : k ≤ 2) (hr : ∀ c ∈ r.head?, c ≠ q) :
    closing q (List.replicate k q ++ q :: q :: q :: r) = some (List.replicate k q, r) := by
  have hrest : r.takeWhile (· == q) = [] := by
    cases r with
    | nil => rfl
    | cons c r => exact List.takeWhile_cons_of_neg (by simpa using hr c rfl)
  obtain rfl | rfl | rfl : k = 0 ∨ k = 1 ∨ k = 2 := by omega
  all_goals simp [closing, hrest]

theorem closing_of_all (hrun : (text.takeWhile (· == q)).length ≤ 2)
    (hall : text.all (· == q) = true) (hr : ∀ c ∈ r.head?, c ≠ q) :
    closing q (text ++ q :: q :: q :: r) = some (text, r) := by
  rw [List.all_eq_true] at hall
  have hreplicate : text = List.replicate text.length q :=
    List.eq_replicate_iff.2 ⟨rfl, fun c hc => eq_of_beq (hall c hc)⟩
  rw [List.takeWhile_eq_self_iff.2 hall] at hrun
  rw [hreplicate]
  exact closing_replicate hrun hr

/-- Two quotes and something else close nothing. -/
theorem closing_eq_none (hrun : (text.takeWhile (· == q)).length ≤ 2)
    (hother : text.all (· == q) = false) (r : List Char) : closing q (text ++ r) = none := by
  have hne : (text.takeWhile (· == q)).length ≠ text.length := fun hlength => by
    have htake := (List.takeWhile_prefix (· == q)).eq_of_length hlength
    have hall := List.takeWhile_eq_self_iff.1 htake
    rw [List.all_eq_true.2 hall] at hother
    cases hother
  rw [closing, List.takeWhile_append, if_neg hne]
  exact if_pos (by omega)

/-- Runs that are kept within a bound are so at the head of the text, after those that came
before. -/
theorem length_takeWhile_of_runsWithin (hrun : run ≤ n) (h : runsWithin n q run cs = true) :
    (cs.takeWhile (· == q)).length + run ≤ n := by
  induction cs generalizing run with
  | nil => simpa using hrun
  | cons c cs ih =>
    rw [runsWithin] at h
    split_ifs at h with hc
    · rw [Bool.and_eq_true, decide_eq_true_iff] at h
      have := ih h.1 h.2
      rw [List.takeWhile_cons_of_pos (by simpa using hc), List.length_cons]
      omega
    · rw [List.takeWhile_cons_of_neg (by simpa using hc)]
      simpa using hrun

/-- Bare quotes are written up to the second of a run. -/
theorem length_takeWhile_escapeLines (hrun : run ≤ 2) (cs : List Char) :
    ((escapeLines run cs).takeWhile (· == '"')).length + run ≤ 2 := by
  induction cs generalizing run with
  | nil => simpa [escapeLines] using hrun
  | cons c cs ih =>
    rw [escapeLines]
    split_ifs with hquote hlt hbreak
    · have := @ih (run + 1) (by omega)
      rw [List.takeWhile_cons_of_pos (by decide), List.length_cons]
      omega
    · simpa using hrun
    · simpa using hrun
    · obtain ⟨d, e, he, hd, -⟩ := head_escapeChar hquote hbreak
      rw [he, List.cons_append, List.takeWhile_cons_of_neg (by simpa using hd)]
      simpa using hrun

/-- What is written as bare quotes only is as it was. -/
theorem escapeLines_eq_self (h : (escapeLines run cs).all (· == '"') = true) :
    escapeLines run cs = cs := by
  induction cs generalizing run with
  | nil => rfl
  | cons c cs ih =>
    rw [escapeLines] at h ⊢
    split_ifs at h ⊢ with hquote hlt hbreak
    · rw [List.all_cons, Bool.and_eq_true] at h
      rw [ih h.2, hquote]
    · simp at h
    · simp at h
    · obtain ⟨d, e, he, hd, -⟩ := head_escapeChar hquote hbreak
      rw [he] at h
      simp [hd] at h

/-! ### Texts over lines -/

/-- A quote inside a text that does not close it. -/
theorem readMultiBasic_quote {t : List Char} (h : closing '"' ('"' :: t) = none) :
    readMultiBasic ('"' :: t) = (readMultiBasic t).map (consText '"') := by
  rw [readMultiBasic, if_pos rfl, h]

theorem readMultiBasic_closing {t : List Char} {result : List Char × List Char}
    (h : closing '"' ('"' :: t) = some result) : readMultiBasic ('"' :: t) = some result := by
  rw [readMultiBasic, if_pos rfl, h]

theorem readMultiBasic_escape {e : List Char} (hjoin : readJoin e = none)
    (h : readEscape e = some (c, r)) :
    readMultiBasic ('\\' :: e) = (readMultiBasic r).map (consText c) := by
  rw [readMultiBasic, if_neg (by decide), if_pos rfl]
  split
  · next hread => simp [hjoin] at hread
  · split
    · next hread =>
      rw [h] at hread
      cases hread
      rfl
    · next hread => simp [h] at hread

theorem readMultiBasic_break (r : List Char) :
    readMultiBasic ('\n' :: r) = (readMultiBasic r).map (consText '\n') := by
  rw [readMultiBasic, if_neg (by decide), if_neg (by decide), if_neg (by decide)]
  rfl

theorem readMultiBasic_escapeChar (hquote : c ≠ '"') (hbreak : c ≠ '\n') (r : List Char) :
    readMultiBasic (escapeChar c ++ r) = (readMultiBasic r).map (consText c) := by
  rcases escapeChar_cases hquote hbreak with ⟨h, hslash, hplain⟩ | ⟨e, h, hread⟩
  · rw [h, List.singleton_append, readMultiBasic, if_neg hquote, if_neg hslash, if_pos hplain]
  · rw [h]
    exact readMultiBasic_escape (hread r).2 (hread r).1

/-- A text that is written over lines is read back, whatever quotes it ends with. -/
theorem readMultiBasic_escapeLines (hrun : run ≤ 2) (hr : ∀ c ∈ r.head?, c ≠ '"')
    (cs : List Char) :
    readMultiBasic (escapeLines run cs ++ '"' :: '"' :: '"' :: r) = some (cs, r) := by
  -- the writer counts the bare quotes before the text, and the reader those that follow
  induction cs generalizing run with
  | nil => exact readMultiBasic_closing (closing_replicate (Nat.zero_le 2) hr)
  | cons c cs ih =>
    have hhead := length_takeWhile_escapeLines hrun (c :: cs)
    rw [escapeLines] at hhead ⊢
    split_ifs at hhead ⊢ with hquote hlt hbreak
    · subst hquote
      -- a bare quote belongs to the closing ones exactly if only quotes are left
      have hlength : (('"' :: escapeLines (run + 1) cs).takeWhile (· == '"')).length ≤ 2 := by omega
      rcases hall : (escapeLines (run + 1) cs).all (· == '"') with _ | _
      · have hnone := closing_eq_none hlength (by simpa using hall) ('"' :: '"' :: '"' :: r)
        rw [List.cons_append] at hnone ⊢
        rw [readMultiBasic_quote hnone, ih (by omega)]
        rfl
      · have hsome := closing_of_all hlength (by simpa using hall) hr
        rw [escapeLines_eq_self hall] at hsome ⊢
        exact readMultiBasic_closing hsome
    · subst hquote
      have hread := readMultiBasic_escape (e := '"' :: (escapeLines 0 cs ++ '"' :: '"' :: '"' :: r))
        rfl rfl
      rw [ih (Nat.zero_le 2)] at hread
      exact hread
    · subst hbreak
      rw [List.cons_append, readMultiBasic_break, ih (Nat.zero_le 2)]
      rfl
    · rw [List.append_assoc, readMultiBasic_escapeChar hquote hbreak, ih (Nat.zero_le 2)]
      rfl

theorem isPlain_or_break (h : isControl c = false) : isPlain c = true ∨ c = '\n' := by
  rw [isControl, Bool.and_eq_false_iff, bne_eq_false_iff_eq] at h
  exact h.imp (by simp) id

theorem readMultiLiteral_break (r : List Char) :
    readMultiLiteral ('\n' :: r) = (readMultiLiteral r).map (consText '\n') := by
  rw [readMultiLiteral, if_neg (by decide), if_neg (by decide)]
  rfl

/-- A text between three single quotes is read back if no three of them stand together in it. -/
theorem readMultiLiteral_append (hrun : run ≤ 2) (hruns : runsWithin 2 '\'' run cs = true)
    (hcs : ∀ c ∈ cs, isControl c = false) (hr : ∀ c ∈ r.head?, c ≠ '\'') :
    readMultiLiteral (cs ++ '\'' :: '\'' :: '\'' :: r) = some (cs, r) := by
  induction cs generalizing run with
  | nil =>
    have hclosing := closing_replicate (q := '\'') (Nat.zero_le 2) hr
    rw [List.replicate_zero, List.nil_append] at hclosing
    rw [List.nil_append, readMultiLiteral, if_pos rfl, hclosing]
  | cons c cs ih =>
    obtain ⟨hc, hrest⟩ := List.forall_mem_cons.1 hcs
    have hlength := length_takeWhile_of_runsWithin hrun hruns
    by_cases hquote : c = '\''
    · subst hquote
      rw [runsWithin, if_pos rfl, Bool.and_eq_true, decide_eq_true_iff] at hruns
      rw [List.cons_append, readMultiLiteral, if_pos rfl, ← List.cons_append]
      rcases hall : ('\'' :: cs).all (· == '\'') with _ | _
      · rw [closing_eq_none (by omega) hall, ih hruns.1 hruns.2 hrest]
        rfl
      · rw [closing_of_all (by omega) hall hr]
    · rw [runsWithin, if_neg hquote] at hruns
      have hread := ih (Nat.zero_le 2) hruns hrest
      rcases isPlain_or_break hc with hplain | rfl
      · rw [List.cons_append, readMultiLiteral, if_neg hquote, if_pos hplain, hread]
        rfl
      · rw [List.cons_append, readMultiLiteral_break, hread]
        rfl

/-! ### The line feed after the opening quotes -/

theorem readBreak_eq_none (h : ∀ c ∈ cs.head?, c ≠ '\n' ∧ c ≠ '\r') : readBreak cs = none := by
  cases cs with
  | nil => rfl
  | cons c cs =>
    obtain ⟨hfeed, hreturn⟩ := h c rfl
    simp [readBreak, hfeed, hreturn]

/-- The line feed after the opening quotes is skipped, and nothing else is. -/
theorem skipBreak_openingBreak
    (h : '\n' ∉ cs → ∀ c ∈ text.head?, c ≠ '\n' ∧ c ≠ '\r') :
    skipBreak (openingBreak cs ++ text) = text := by
  rw [openingBreak, List.contains_eq_mem]
  split_ifs with hbreak
  · rfl
  · rw [List.nil_append, skipBreak, readBreak_eq_none (h (by simpa using hbreak)),
      Option.getD_none]

theorem head_escapeLines (h : '\n' ∉ cs) (r : List Char) :
    ∀ c ∈ (escapeLines run cs ++ '"' :: r).head?, c ≠ '\n' ∧ c ≠ '\r' := by
  cases cs with
  | nil => exact fun c hc => by cases hc; decide
  | cons d cs =>
    have hbreak : d ≠ '\n' := fun hd => h (by rw [hd]; exact List.mem_cons_self)
    rw [escapeLines]
    split_ifs with hquote hlt
    · exact fun c hc => by cases hc; decide
    · exact fun c hc => by cases hc; decide
    · obtain ⟨e, t, he, -, hfeed, hreturn⟩ := head_escapeChar hquote hbreak
      rw [he]
      exact fun c hc => by cases hc; exact ⟨hfeed, hreturn⟩

theorem head_multiLiteral (hcs : ∀ c ∈ cs, isControl c = false) (h : '\n' ∉ cs) (r : List Char) :
    ∀ c ∈ (cs ++ '\'' :: r).head?, c ≠ '\n' ∧ c ≠ '\r' := by
  cases cs with
  | nil => exact fun c hc => by cases hc; decide
  | cons d cs =>
    intro c hc
    cases hc
    refine ⟨?_, ?_⟩
    · rintro rfl
      exact h List.mem_cons_self
    · rintro rfl
      exact absurd (hcs _ List.mem_cons_self) (by decide)

/-! ### All forms -/

/-- What a form can hold: a literal stands for itself, and all other texts can be escaped. -/
def Form.Holds : Form → List Char → Prop
  | .literal, cs => ∀ c ∈ cs, isPlain c = true ∧ c ≠ '\''
  | .multiLiteral, cs => runsWithin 2 '\'' 0 cs = true ∧ ∀ c ∈ cs, isControl c = false
  | _, _ => True

/-- The form that is chosen for a text can hold it. -/
theorem holds_formOf (cs : List Char) : (formOf cs).Holds cs := by
  have hcontrols : cs.any isControl = false → ∀ c ∈ cs, isControl c = false := fun h c hc => by
    have := List.any_eq_false.1 h c hc
    simpa using this
  simp only [formOf]
  split_ifs with hbasic hliteral hmultiBasic hmultiLiteral hbreaks
  · trivial
  · simp only [Bool.and_eq_true, Bool.not_eq_true', List.contains_eq_mem,
      decide_eq_false_iff_not] at hliteral
    obtain ⟨⟨hcontrol, hbreak⟩, hquote⟩ := hliteral
    refine fun c hc => ⟨?_, ?_⟩
    · refine (isPlain_or_break (hcontrols hcontrol c hc)).resolve_right ?_
      rintro rfl
      exact hbreak hc
    · rintro rfl
      exact hquote hc
  · trivial
  · rw [Bool.and_eq_true, Bool.not_eq_true'] at hmultiLiteral
    exact ⟨hmultiLiteral.2, hcontrols hmultiLiteral.1⟩
  · trivial
  · trivial

theorem readQuoted_multiBasic (hr : ∀ c ∈ r.head?, c ≠ '"') (cs : List Char) :
    readQuoted (quoteAs .multiBasic cs ++ r) = some (cs, r) := by
  have hopen : skipBreak (openingBreak cs ++ (escapeLines 0 cs ++ '"' :: '"' :: '"' :: r)) =
      escapeLines 0 cs ++ '"' :: '"' :: '"' :: r :=
    skipBreak_openingBreak fun h => head_escapeLines h _
  rw [quoteAs, List.append_assoc, List.append_assoc, List.append_assoc]
  show readMultiBasic (skipBreak _) = _
  exact (congrArg readMultiBasic hopen).trans
    (readMultiBasic_escapeLines (Nat.zero_le 2) hr cs)

/-- Between one double quote on each side a text does not begin with two more. -/
theorem readQuoted_basic (hr : ∀ c ∈ r.head?, c ≠ '"') (cs : List Char) :
    readQuoted (quoteAs .basic cs ++ r) = some (cs, r) := by
  have hother : ∀ t, escapeLine cs ++ '"' :: r ≠ '"' :: '"' :: t := fun t heq => by
    cases cs with
    | nil =>
      rw [escapeLine, List.flatMap_nil, List.nil_append] at heq
      cases heq
      exact hr '"' rfl rfl
    | cons c cs =>
      rw [escapeLine, List.flatMap_cons] at heq
      split_ifs at heq with hbreak hquote
      · cases heq
      · cases heq
      · obtain ⟨d, e, he, hd, -⟩ := head_escapeChar hquote hbreak
        rw [he, List.cons_append, List.cons_append] at heq
        exact hd (List.cons.inj heq).1
  rw [quoteAs, List.append_assoc, List.cons_append, List.singleton_append, readQuoted,
    readBasic_escapeLine]
  exact hother

theorem readQuoted_literal (hr : ∀ c ∈ r.head?, c ≠ '\'')
    (hcs : ∀ c ∈ cs, isPlain c = true ∧ c ≠ '\'') :
    readQuoted (quoteAs .literal cs ++ r) = some (cs, r) := by
  have hother : ∀ t, cs ++ '\'' :: r ≠ '\'' :: '\'' :: t := fun t heq => by
    cases cs with
    | nil =>
      cases heq
      exact hr '\'' rfl rfl
    | cons c cs => exact (hcs c List.mem_cons_self).2 (List.cons.inj heq).1
  rw [quoteAs, List.append_assoc, List.cons_append, List.singleton_append, readQuoted,
    readLiteral_append hcs]
  exact hother

theorem readQuoted_multiLiteral (hr : ∀ c ∈ r.head?, c ≠ '\'')
    (hruns : runsWithin 2 '\'' 0 cs = true) (hcs : ∀ c ∈ cs, isControl c = false) :
    readQuoted (quoteAs .multiLiteral cs ++ r) = some (cs, r) := by
  have hopen : skipBreak (openingBreak cs ++ (cs ++ '\'' :: '\'' :: '\'' :: r)) =
      cs ++ '\'' :: '\'' :: '\'' :: r :=
    skipBreak_openingBreak fun h => head_multiLiteral hcs h _
  rw [quoteAs, List.append_assoc, List.append_assoc, List.append_assoc]
  show readMultiLiteral (skipBreak _) = _
  exact (congrArg readMultiLiteral hopen).trans
    (readMultiLiteral_append (Nat.zero_le 2) hruns hcs hr)

/-- **Quoted texts are read back.** A text in a form that can hold it is read as that text, up to
the closing quotes. -/
theorem readQuoted_quoteAs {form : Form} (h : form.Holds cs)
    (hr : ∀ c ∈ r.head?, c ≠ '"' ∧ c ≠ '\'') :
    readQuoted (quoteAs form cs ++ r) = some (cs, r) := by
  have hdouble : ∀ c ∈ r.head?, c ≠ '"' := fun c hc => (hr c hc).1
  have hsingle : ∀ c ∈ r.head?, c ≠ '\'' := fun c hc => (hr c hc).2
  cases form with
  | basic => exact readQuoted_basic hdouble cs
  | literal => exact readQuoted_literal hsingle h
  | multiBasic => exact readQuoted_multiBasic hdouble cs
  | multiLiteral => exact readQuoted_multiLiteral hsingle h.1 h.2
  | escaped => exact readQuoted_basic hdouble cs
  | multiEscaped => exact readQuoted_multiBasic hdouble cs

theorem head_quoteAs (form : Form) (cs : List Char) :
    ∃ c t, quoteAs form cs = c :: t ∧ (c = '"' ∨ c = '\'') := by
  cases form with
  | basic | multiBasic | escaped | multiEscaped => exact ⟨'"', _, rfl, Or.inl rfl⟩
  | literal | multiLiteral => exact ⟨'\'', _, rfl, Or.inr rfl⟩

end RealModeTrace.Toml
