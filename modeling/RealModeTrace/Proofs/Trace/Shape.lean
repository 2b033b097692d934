import RealModeTrace.Proofs.Trace.Width

/-!
# Shapes of lines

A line begins with its time or with the mark of a banner, which is never cut, and no line ends
within it unless a text from outside brings a line end.

* `HasOpening`, `Record.hasOpening_text`: what every line begins with;
* `Record.newline_notMem`: no line ends within a line whose names have no line end.
-/

namespace RealModeTrace

open Text

/-! ### Openings -/

/-- The text begins with a decimal number of milliseconds in its marks, or with the mark of a
banner. -/
def HasOpening (line : String) : Prop :=
  (∃ digits : List Char, digits ≠ [] ∧ (∀ c ∈ digits, isDecimal c = true) ∧
    "[T+".toList ++ digits ++ "ms] ".toList <+: line.toList) ∨
    "[debugtrace] ".toList <+: line.toList

/-- What a line begins with is never cut if it is as short as the capacity of every line. -/
theorem Record.isPrefix_text {r : Record} {opening rest : String} (hfull : r.full = opening ++ rest)
    (hsize : opening.utf8ByteSize ≤ lineCapacity) : opening.toList <+: r.text.toList := by
  refine r.longestPrefix_text.longest opening ?_ (Nat.le_trans hsize r.lineCapacity_le)
  rw [hfull, String.toList_append]
  exact List.prefix_append ..

/-- A timed line begins with its time in eight digits at least. -/
theorem Record.isPrefix_stamp (elapsed : UInt64) (payload : Payload) :
    "[T+".toList ++ (Nat.toDigits 10 elapsed.toNat).leftpad 8 '0' ++ "ms] ".toList <+:
      (Record.timed elapsed payload).text.toList := by
  have hstamp : (String.join (stampPieces elapsed)).toList =
      "[T+".toList ++ (Nat.toDigits 10 elapsed.toNat).leftpad 8 '0' ++ "ms] ".toList := by
    simp only [stampPieces, decimalPad, String.join_cons, String.join_nil, String.append_empty,
      String.toList_append, String.toList_ofList, List.append_assoc]
  rw [← hstamp]
  exact isPrefix_text (r := .timed elapsed payload) String.join_append
    (Nat.le_trans (plain_stamp elapsed).size_le (by decide))

/-- A banner begins with its mark. -/
theorem Record.isPrefix_tag (b : Banner) :
    "[debugtrace] ".toList <+: (Record.banner b).text.toList :=
  isPrefix_text (full_eq _) (by decide)

theorem Record.hasOpening_text (r : Record) : HasOpening r.text := by
  cases r with
  | timed elapsed payload =>
    have hlength : 8 ≤ ((Nat.toDigits 10 elapsed.toNat).leftpad 8 '0').length := by
      rw [List.length_leftpad]
      exact Nat.le_max_left ..
    exact Or.inl ⟨_, List.ne_nil_of_length_pos (by omega),
      fun c hc => isDecimal_of_mem_leftpad hc, isPrefix_stamp elapsed payload⟩
  | banner b => exact Or.inr (isPrefix_tag b)

/-! ### Line ends -/

/-- Some number of digits is enough for a depth. -/
theorem exists_digits (depth? : Option Int) :
    ∃ k, 0 < k ∧ ∀ depth ∈ depth?, depth.natAbs < 10 ^ k := by
  rcases depth? with _ | depth
  · exact ⟨1, Nat.one_pos, fun depth h => absurd h (Option.not_mem_none depth)⟩
  · refine ⟨depth.natAbs + 1, Nat.succ_pos _, fun d h => ?_⟩
    obtain rfl := Option.mem_some_iff.1 h
    exact Nat.lt_trans (Nat.lt_succ_self _) (Nat.lt_pow_self (by decide))

theorem Payload.newline_notMem {p : Payload} (hwindow : p.Windowed)
    (hnames : ∀ name ∈ p.names, '\n' ∉ name.toList) :
    '\n' ∉ (String.join p.pieces).toList := by
  by_cases hplain : p.names = []
  · obtain ⟨k, hk, hdepth⟩ := exists_digits p.depth?
    exact (p.plain_pieces hk hplain hwindow hdepth).newline_notMem
  -- the names stand between plain pieces
  have hword (w : UInt16) : '\n' ∉ (decimalWord w).toList :=
    (plain_decimal (k := 5) (by decide) (Nat.lt_trans w.toNat_lt (by decide))).newline_notMem
  have hhex (w : UInt16) := (plain_hexWord w).newline_notMem
  refine newline_notMem_join ?_
  cases p with
  | fileCreate name attributes =>
    have hname := hnames name List.mem_cons_self
    simp only [Payload.pieces, List.forall_mem_cons]
    exact ⟨by decide, hname, by decide, hhex attributes, List.forall_mem_nil _⟩
  | fileOpen name mode =>
    have hname := hnames name List.mem_cons_self
    simp only [Payload.pieces, List.forall_mem_cons]
    exact ⟨by decide, hname, by decide, (AccessModes.plain_describe mode).newline_notMem,
      by decide, (plain_hexByte mode).newline_notMem, by decide, List.forall_mem_nil _⟩
  | fileClose name handle =>
    have hname := hnames name List.mem_cons_self
    simp only [Payload.pieces, List.forall_mem_cons]
    exact ⟨by decide, hname, by decide, hword handle, by decide, List.forall_mem_nil _⟩
  | fileRead name request =>
    have hname := hnames name List.mem_cons_self
    simp only [Payload.pieces, List.forall_mem_cons]
    exact ⟨by decide, hname, by decide, hword _, by decide, hword _, by decide, hhex _,
      by decide, hhex _, List.forall_mem_nil _⟩
  | fileReadResult name handle actual =>
    have hname := hnames name List.mem_cons_self
    simp only [Payload.pieces, List.forall_mem_cons]
    exact ⟨by decide, hname, by decide, hword handle, by decide, hword actual,
      List.forall_mem_nil _⟩
  | exec filename cmdline psp =>
    have hfilename := hnames filename List.mem_cons_self
    have hcmdline := hnames cmdline (List.mem_cons_of_mem _ List.mem_cons_self)
    simp only [Payload.pieces, List.forall_mem_cons]
    exact ⟨by decide, hfilename, by decide, hcmdline, by decide, hhex psp, by decide,
      List.forall_mem_nil _⟩
  | _ => exact absurd rfl hplain

theorem FileError.plain_message (cause : FileError) : Plain 50 cause.message := by
  cases cause <;> exact plain_of_isPlain (by decide)

theorem Banner.newline_notMem {b : Banner}
    (hnames : ∀ name ∈ (Record.banner b).names, '\n' ∉ name.toList) : '\n' ∉ b.text.toList := by
  cases b with
  | fallback error =>
    have hopening : Plain 9 "WARNING: " := plain_of_isPlain (by decide)
    have hcannot : Plain 22 "cannot open log file '" := plain_of_isPlain (by decide)
    have hquote : Plain 3 "': " := plain_of_isPlain (by decide)
    have hclosing : Plain 24 ", falling back to stdout" := plain_of_isPlain (by decide)
    have hmessage : '\n' ∉ error.message.toList :=
      newline_notMem_append (newline_notMem_append
        (newline_notMem_append hcannot.newline_notMem (hnames error.path List.mem_cons_self))
        hquote.newline_notMem) error.cause.plain_message.newline_notMem
    exact newline_notMem_append (newline_notMem_append hopening.newline_notMem hmessage)
      hclosing.newline_notMem
  | _ => exact (plain_of_isPlain (n := 60) (by decide)).newline_notMem

namespace Record

/-- No line ends within a line if none ends within the texts from outside in it. -/
theorem newline_notMem {r : Record} (hwindow : r.Windowed)
    (hnames : ∀ name ∈ r.names, '\n' ∉ name.toList) : '\n' ∉ r.text.toList := fun hmem => by
  refine absurd (r.longestPrefix_text.initial.subset hmem) ?_
  cases r with
  | timed elapsed payload =>
    show '\n' ∉ (String.join (stampPieces elapsed ++ payload.pieces)).toList
    rw [String.join_append]
    exact newline_notMem_append (plain_stamp elapsed).newline_notMem
      (payload.newline_notMem hwindow hnames)
  | banner b =>
    have htag : Plain 13 "[debugtrace] " := plain_of_isPlain (by decide)
    rw [full_eq]
    exact newline_notMem_append htag.newline_notMem (Banner.newline_notMem hnames)

end Record

end RealModeTrace
