import RealModeTrace.Proofs.Event.OneLine
import RealModeTrace.Proofs.Text.LineEnds
import RealModeTrace.Script

/-!
# Reading scripts

A script is read line by line. It gives the events of all lines that are to be events, or else the
number of the first one that is none. A script that is laid out with events, comments and blanks in
any way gives its events back, with the numbers of their lines.

* `Speaks`: a trimmed line is to be an event; `spoken`: the lines of a script that are;
* `readAll_ok_iff`, `readAll_error_iff`: what reading numbered lines gives;
* `Layout`: a script laid out row by row; `readAll_layout`: its rows are read one after another;
* `Parses`: what reading a script says; `scripts_parsed`: it says so of every text, and of every
  layout.
-/

namespace RealModeTrace.Script

/-! ### Lines that are to be events -/

/-- A trimmed line is to be an event: something is on it, and it is no comment. -/
def Speaks (line : String) : Prop :=
  line ≠ "" ∧ line.toList.head? ≠ some '#'

instance : DecidablePred Speaks := fun _ => inferInstanceAs (Decidable (_ ∧ _))

theorem isSilent_iff {line : String} : isSilent line = true ↔ ¬ Speaks line := by
  have hhead : "#".toList <+: line.toList ↔ line.toList.head? = some '#' := by
    cases line.toList <;> simp [eq_comm]
  rw [isSilent, Bool.or_eq_true, beq_iff_eq, String.startsWith_string_iff, hhead, Speaks,
    not_and_or, not_not, not_not]

/-- The numbered lines that are to be events. -/
def spokenOf (numbered : List (String × Nat)) : List (String × Nat) :=
  numbered.filter fun line => Speaks line.1

/-- The lines of a script that are to be events, trimmed and with their numbers. -/
def spoken (s : String) : List (String × Nat) :=
  spokenOf (((Text.lines s).map Text.trim).zipIdx 1)

/-- A numbered line is an event. -/
structure Says (line : String × Nat) (entry : Nat × Event) : Prop where
  number_eq : entry.1 = line.2
  event_eq : Event.parse? line.1 = some entry.2

/-! ### Reading numbered lines -/

/-- The events of numbered lines, or the first line that is no event. -/
def readAll (numbered : List (String × Nat)) : Except BadLine (List (Nat × Event)) := do
  let read ← numbered.mapM readLine
  return read.filterMap id

theorem parse_eq (s : String) : parse s = readAll (((Text.lines s).map Text.trim).zipIdx 1) := rfl

theorem readAll_cons (line : String × Nat) (rest : List (String × Nat)) :
    readAll (line :: rest) = do
      let read? ← readLine line
      let entries ← readAll rest
      return read?.toList ++ entries := by
  unfold readAll
  rw [List.mapM_cons]
  rcases readLine line with e | _ | entry <;> rcases rest.mapM readLine with e | read <;> rfl

variable {line : String} {n : Nat}

theorem readAll_of_silent (h : ¬ Speaks line) (rest : List (String × Nat)) :
    readAll ((line, n) :: rest) = readAll rest := by
  have hread : readLine (line, n) = .ok none := if_pos (isSilent_iff.2 h)
  rw [readAll_cons, hread]
  cases readAll rest <;> rfl

theorem readLine_of_speaks (h : Speaks line) (n : Nat) :
    readLine (line, n) = match Event.parse? line with
      | some event => .ok (some (n, event))
      | none => .error ⟨n⟩ :=
  if_neg fun hsilent => isSilent_iff.1 hsilent h

theorem readAll_of_event (h : Speaks line) {event : Event}
    (hevent : Event.parse? line = some event) (rest : List (String × Nat)) :
    readAll ((line, n) :: rest) = (readAll rest).map ((n, event) :: ·) := by
  rw [readAll_cons, readLine_of_speaks h, hevent]
  cases readAll rest <;> rfl

theorem readAll_of_bad (h : Speaks line) (hbad : Event.parse? line = none)
    (rest : List (String × Nat)) : readAll ((line, n) :: rest) = .error ⟨n⟩ := by
  rw [readAll_cons, readLine_of_speaks h, hbad]
  rfl

theorem spokenOf_of_speaks (h : Speaks line) (rest : List (String × Nat)) :
    spokenOf ((line, n) :: rest) = (line, n) :: spokenOf rest :=
  List.filter_cons_of_pos (decide_eq_true h)

theorem spokenOf_of_silent (h : ¬ Speaks line) (rest : List (String × Nat)) :
    spokenOf ((line, n) :: rest) = spokenOf rest :=
  List.filter_cons_of_neg (by simpa using h)

/-- The events of numbered lines are those of the lines that are to be events. -/
theorem readAll_ok_iff {numbered : List (String × Nat)} {events : List (Nat × Event)} :
    readAll numbered = .ok events ↔ List.Forall₂ Says (spokenOf numbered) events := by
  induction numbered generalizing events with
  | nil =>
    cases events with
    | nil => exact ⟨fun _ => .nil, fun _ => rfl⟩
    | cons entry events => exact ⟨nofun, nofun⟩
  | cons first rest ih =>
    obtain ⟨line, n⟩ := first
    by_cases h : Speaks line
    · rw [spokenOf_of_speaks h]
      rcases hevent : Event.parse? line with _ | event
      · rw [readAll_of_bad h hevent]
        constructor
        · nofun
        · rintro (_ | ⟨hsaid, -⟩)
          exact absurd (hevent.symm.trans hsaid.event_eq) (Option.some_ne_none _).symm
      · rw [readAll_of_event h hevent, List.forall₂_cons_left_iff]
        constructor
        · intro hread
          rcases hrest : readAll rest with e | more <;> rw [hrest] at hread
          · cases hread
          · cases hread
            exact ⟨(n, event), more, ⟨rfl, hevent⟩, ih.1 hrest, rfl⟩
        · rintro ⟨⟨number, other⟩, more, hsaid, hmore, rfl⟩
          obtain rfl : number = n := hsaid.number_eq
          obtain rfl : other = event := Option.some.inj (hsaid.event_eq.symm.trans hevent)
          rw [ih.2 hmore]
          rfl
    · rw [spokenOf_of_silent h, readAll_of_silent h]
      exact ih

/-- Numbered lines are refused for the first line that is to be an event and is none. -/
theorem readAll_error_iff {numbered : List (String × Nat)} {e : BadLine} :
    readAll numbered = .error e ↔
      ((spokenOf numbered).find? fun line => (Event.parse? line.1).isNone).map Prod.snd =
        some e.number := by
  induction numbered with
  | nil => exact ⟨nofun, nofun⟩
  | cons first rest ih =>
    obtain ⟨line, n⟩ := first
    by_cases h : Speaks line
    · rw [spokenOf_of_speaks h]
      rcases hevent : Event.parse? line with _ | event
      · obtain ⟨number⟩ := e
        rw [readAll_of_bad h hevent, List.find?_cons_of_pos (by rw [hevent]; rfl)]
        simp
      · rw [readAll_of_event h hevent, List.find?_cons_of_neg (by rw [hevent]; exact nofun), ← ih]
        cases readAll rest <;> simp [Except.map]
    · rw [spokenOf_of_silent h, readAll_of_silent h]
      exact ih

/-- Numbered lines are read exactly if all that are to be events are. -/
theorem exists_readAll_iff {numbered : List (String × Nat)} :
    (∃ events, readAll numbered = .ok events) ↔
      ∀ line ∈ spokenOf numbered, (Event.parse? line.1).isSome = true := by
  have hnone : (∀ line ∈ spokenOf numbered, (Event.parse? line.1).isSome = true) ↔
      ((spokenOf numbered).find? fun line => (Event.parse? line.1).isNone) = none := by
    simp [Option.isSome_iff_ne_none]
  rw [hnone]
  rcases hread : readAll numbered with e | events
  · have hfind := readAll_error_iff.1 hread
    constructor
    · nofun
    · intro h
      rw [h] at hfind
      cases hfind
  · refine ⟨fun _ => ?_, fun _ => ⟨events, rfl⟩⟩
    rcases hfind : (spokenOf numbered).find? fun line => (Event.parse? line.1).isNone with _ | line
    · exact hfind
    · have herror : readAll numbered = .error ⟨line.2⟩ :=
        readAll_error_iff.2 (by rw [hfind]; rfl)
      cases hread.symm.trans herror

/-! ### Scripts laid out row by row -/

/-- What stands before or after an event on its line: blanks, but no line feed. -/
structure Padding where
  text : String
  blank : ∀ c ∈ text.toList, Text.isBlank c = true
  newline_notMem : '\n' ∉ text.toList

/-- A row of a script: a comment or blanks, or an event with blanks around it. -/
inductive Row
  | silent (line : String) (hline : '\n' ∉ line.toList) (hsilent : ¬ Speaks (Text.trim line))
  | event (before : Padding) (event : Event) (after : Padding)

namespace Row

/-- The text of a row without its line end. -/
def text : Row → String
  | .silent line _ _ => line
  | .event before e after => before.text ++ e.render ++ after.text

/-- The event of a row. -/
def event? : Row → Option Event
  | .silent _ _ _ => none
  | .event _ e _ => some e

/-- The event of a numbered row, with the number. -/
def numbered? (n : Nat) (row : Row) : Option (Nat × Event) :=
  row.event?.map (n, ·)

theorem newline_notMem_text (row : Row) : '\n' ∉ row.text.toList := by
  cases row with
  | silent line hline _ => exact hline
  | event before e after =>
    exact Text.newline_notMem_append
      (Text.newline_notMem_append before.newline_notMem e.newline_notMem_render)
      after.newline_notMem

/-- The text of an event is to be an event. -/
theorem speaks_render (e : Event) : Speaks e.render := by
  obtain ⟨cs, hends⟩ := e.render_ends
  constructor
  · intro hempty
    rw [hempty] at hends
    cases hends
  · rw [hends]
    simp

/-- Trimming leaves the text of an event and nothing around it. -/
theorem trim_event (before after : Padding) (e : Event) :
    Text.trim (before.text ++ e.render ++ after.text) = e.render := by
  obtain ⟨cs, hends⟩ := e.render_ends
  have hself : Text.trimChars e.render.toList = e.render.toList := by
    rw [hends]
    exact Text.trimChars_eq_self (by decide) (by decide)
  rw [Text.trim, String.toList_append, String.toList_append,
    Text.trimChars_pad before.blank after.blank, hself, String.ofList_toList]

/-- A row adds its event to those of the rows after it. -/
theorem readAll_row (row : Row) (n : Nat) (rest : List (String × Nat)) :
    readAll ((Text.trim row.text, n) :: rest) =
      (readAll rest).map ((row.numbered? n).toList ++ ·) := by
  cases row with
  | silent line hline hsilent =>
    have hrow : ¬ Speaks (Text.trim (Row.silent line hline hsilent).text) := hsilent
    rw [readAll_of_silent hrow]
    cases readAll rest <;> rfl
  | event before e after =>
    have htrim : Text.trim (Row.event before e after).text = e.render :=
      trim_event before after e
    rw [htrim, readAll_of_event (speaks_render e) e.parse?_render]
    rfl

end Row

/-- A script laid out row by row: rows with their line ends, and perhaps one more without. -/
structure Layout where
  ended : List (Row × Text.LineEnd)
  last : Option Row

namespace Layout

/-- The text of the script. -/
def text (layout : Layout) : String :=
  String.join (layout.ended.map fun row => row.1.text ++ row.2.text) ++
    String.join (layout.last.toList.map Row.text)

/-- The rows, each on its line. -/
def rows (layout : Layout) : List Row :=
  layout.ended.map Prod.fst ++ layout.last.toList

/-- The events of the rows with their numbers, where the first row has a given number. -/
def entriesFrom (n : Nat) (layout : Layout) : List (Nat × Event) :=
  (layout.rows.zipIdx n).filterMap fun row => row.1.numbered? row.2

/-- The events of the script with the numbers of their lines. -/
def entries (layout : Layout) : List (Nat × Event) :=
  layout.entriesFrom 1

/-- A row without a line end is read, and nothing is if there is no such row. -/
theorem readAll_last (last : Option Row) (n : Nat) :
    readAll (((Text.lines (text ⟨[], last⟩)).map Text.trim).zipIdx n) =
      .ok (entriesFrom n ⟨[], last⟩) := by
  cases last with
  | none => rfl
  | some row =>
    have htext : text ⟨[], some row⟩ = row.text := by simp [text]
    have hread : readAll (((Text.lines row.text).map Text.trim).zipIdx n) =
        readAll [(Text.trim row.text, n)] := by
      rw [Text.lines_unended row.newline_notMem_text]
      by_cases hempty : row.text = ""
      · -- an empty row is no line, but as a line it would say nothing
        have hsilent : ¬ Speaks (Text.trim "") := by decide
        rw [if_pos hempty, hempty, readAll_of_silent hsilent]
        rfl
      · rw [if_neg hempty]
        rfl
    rw [htext, hread, row.readAll_row]
    cases hnumbered : row.numbered? n <;> simp [entriesFrom, rows, hnumbered, readAll] <;> rfl

/-- The rows of a script are read one after another. -/
theorem readAll_layout (ended : List (Row × Text.LineEnd)) (last : Option Row) (n : Nat) :
    readAll (((Text.lines (text ⟨ended, last⟩)).map Text.trim).zipIdx n) =
      .ok (entriesFrom n ⟨ended, last⟩) := by
  induction ended generalizing n with
  | nil => exact readAll_last last n
  | cons first ended ih =>
    obtain ⟨row, lineEnd⟩ := first
    have htext : text ⟨(row, lineEnd) :: ended, last⟩ =
        row.text ++ lineEnd.text ++ text ⟨ended, last⟩ := by
      simp [text, String.append_assoc]
    rw [htext, Text.map_trim_lines row.newline_notMem_text, List.zipIdx_cons, row.readAll_row, ih]
    cases hnumbered : row.numbered? n <;> simp [entriesFrom, rows, hnumbered, Except.map]

end Layout

/-! ### Every script -/

/-- What reading a script says. -/
structure Parses (s : String) : Prop where
  /-- The text falls into its lines, and into no others. -/
  lines_iff : ∀ ls, Text.LinesOf s ls ↔ ls = Text.lines s
  /-- It is read exactly if all lines that are to be events are. -/
  read_iff : (∃ events, parse s = .ok events) ↔
    ∀ line ∈ spoken s, (Event.parse? line.1).isSome = true
  /-- It gives the events of these lines in order, with their numbers. -/
  events_iff : ∀ events, parse s = .ok events ↔ List.Forall₂ Says (spoken s) events
  /-- It is refused for the first such line that is no event. -/
  refused_iff : ∀ e, parse s = .error e ↔
    ((spoken s).find? fun line => (Event.parse? line.1).isNone).map Prod.snd = some e.number

/-- **Scripts are read line by line.** Every text falls into lines, ended by LF or CRLF, in one way.
It is read exactly if each line that after trimming is neither empty nor a comment is an event, and
then gives these events in order with their line numbers; otherwise it is refused for the first line
that is none. A script with each event on a line of its own, with blanks around the events, comments
and blank lines between them and line ends of both kinds in any way, gives back the events with the
numbers of their lines. -/
theorem scripts_parsed : (∀ s, Parses s) ∧
    ∀ layout : Layout, parse layout.text = .ok layout.entries := by
  constructor
  · intro s
    exact ⟨fun ls => Text.linesOf_iff.trans eq_comm, exists_readAll_iff, fun _ => readAll_ok_iff,
      fun _ => readAll_error_iff⟩
  · intro layout
    rw [parse_eq]
    exact Layout.readAll_layout layout.ended layout.last 1

/-- One `#` begins a comment; another, a blank and a line feed are in a name. -/
example : parse ("# open\r\n" ++
      "\t\x7b\"event\":\"handle_opened\",\"handle\":5,\"filename\":\"# \\n\"\x7d ") =
    .ok [(2, .handleOpened 5 "# \n")] := by
  decide +kernel

end RealModeTrace.Script
