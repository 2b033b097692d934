import RealModeTrace.Text.Numeral

/-!
# Quoted text in TOML

A text is written in the first of these forms that can hold it:

1. `Form.basic`: between double quotes, for a text without quotes, backslashes, line feeds and
   control characters;
2. `Form.literal`: between single quotes, where a backslash stands for itself;
3. `Form.multiBasic`: between three double quotes;
4. `Form.multiLiteral`: between three single quotes;
5. `Form.escaped` and, if there is a line feed, `Form.multiEscaped`: between one or three double
   quotes, with escapes.

Each reader below starts after the opening delimiter and gives the text and what follows the closing
one.
-/

namespace RealModeTrace.Toml

/-- A character that may stand in a comment or a literal: a tab, or no control character. -/
def isPlain (c : Char) : Bool :=
  c == '\t' || (' ' ≤ c && c != '\x7f')

/-- A control character that a multi-line literal cannot hold. -/
def isControl (c : Char) : Bool :=
  !isPlain c && c != '\n'

/-! ### Writing -/

/-- The ways to write a text. -/
inductive Form
  | basic
  | literal
  | multiBasic
  | multiLiteral
  | escaped
  | multiEscaped
  deriving DecidableEq, Repr

/-- No `n + 1` of the character `q` stand next to each other after `run` of them. -/
def runsWithin (n : Nat) (q : Char) : Nat → List Char → Bool
  | _, [] => true
  | run, c :: cs =>
    if c = q then run < n && runsWithin n q (run + 1) cs else runsWithin n q 0 cs

/-- The first form that can hold a text. -/
def formOf (cs : List Char) : Form :=
  let controls := cs.any isControl
  let breaks := cs.contains '\n'
  if !controls && !breaks && !cs.contains '\\' && !cs.contains '"' then .basic
  else if !controls && !breaks && !cs.contains '\'' then .literal
  else if !controls && !cs.contains '\\' && runsWithin 2 '"' 0 cs then .multiBasic
  else if !controls && runsWithin 2 '\'' 0 cs then .multiLiteral
  else if breaks then .multiEscaped
  else .escaped

/-- The four digits of a control character in an escape. -/
def controlEscape (c : Char) : List Char :=
  ['\\', 'u', '0', '0', Text.hexDigit (c.toNat / 16), Text.hexDigit (c.toNat % 16)]

/-- A character other than a line feed or a quote between double quotes. -/
def escapeChar (c : Char) : List Char :=
  if c = '\x08' then ['\\', 'b']
  else if c = '\t' then ['\\', 't']
  else if c = '\x0c' then ['\\', 'f']
  else if c = '\r' then ['\\', 'r']
  else if c = '\\' then ['\\', '\\']
  else if c.toNat < 0x20 || c = '\x7f' then controlEscape c
  else [c]

/-- The characters of a text between double quotes on one line. -/
def escapeLine (cs : List Char) : List Char :=
  cs.flatMap fun c =>
    if c = '\n' then ['\\', 'n'] else if c = '"' then ['\\', '"'] else escapeChar c

/-- The characters of a text between three double quotes, after `run` bare quotes: the third quote
of a run is escaped. -/
def escapeLines : Nat → List Char → List Char
  | _, [] => []
  | run, c :: cs =>
    if c = '"' then
      if run < 2 then '"' :: escapeLines (run + 1) cs else '\\' :: '"' :: escapeLines 0 cs
    else if c = '\n' then '\n' :: escapeLines 0 cs
    else escapeChar c ++ escapeLines 0 cs

/-- The line feed after an opening delimiter of three quotes, if the text has a line feed. -/
def openingBreak (cs : List Char) : List Char :=
  if cs.contains '\n' then ['\n'] else []

/-- A text in a given form. -/
def quoteAs (form : Form) (cs : List Char) : List Char :=
  match form with
  | .basic | .escaped => '"' :: escapeLine cs ++ ['"']
  | .literal => '\'' :: cs ++ ['\'']
  | .multiBasic | .multiEscaped =>
    ['"', '"', '"'] ++ openingBreak cs ++ escapeLines 0 cs ++ ['"', '"', '"']
  | .multiLiteral => ['\'', '\'', '\''] ++ openingBreak cs ++ cs ++ ['\'', '\'', '\'']

/-- A quoted text. -/
def quoted (s : String) : String :=
  String.ofList (quoteAs (formOf s.toList) s.toList)

/-! ### Reading -/

/-- Put a character in front of the text that a reader gives. -/
def consText (c : Char) (result : List Char × List Char) : List Char × List Char :=
  (c :: result.1, result.2)

/-- The character whose code point is written with `n` digits. -/
def readCodePoint (n : Nat) (cs : List Char) : Option (Char × List Char) :=
  let digits := cs.take n
  if digits.length = n && digits.all (Text.isDigitOf 16) then
    let code := Text.natOfDigits 16 digits
    if code.isValidChar then some (Char.ofNat code, cs.drop n) else none
  else none

/-- The character that an escape stands for, after the backslash. -/
def readEscape : List Char → Option (Char × List Char)
  | 'b' :: r => some ('\x08', r)
  | 't' :: r => some ('\t', r)
  | 'n' :: r => some ('\n', r)
  | 'f' :: r => some ('\x0c', r)
  | 'r' :: r => some ('\r', r)
  | '"' :: r => some ('"', r)
  | '\\' :: r => some ('\\', r)
  | 'u' :: r => readCodePoint 4 r
  | 'U' :: r => readCodePoint 8 r
  | _ => none

theorem length_of_readCodePoint {n : Nat} {cs r : List Char} {c : Char}
    (h : readCodePoint n cs = some (c, r)) : r.length ≤ cs.length := by
  simp only [readCodePoint, Option.ite_none_right_eq_some, Option.some.injEq, Prod.mk.injEq] at h
  obtain ⟨-, -, -, rfl⟩ := h
  simp

theorem length_of_readEscape {cs r : List Char} {c : Char} (h : readEscape cs = some (c, r)) :
    r.length < cs.length := by
  unfold readEscape at h
  split at h
  case h_8 => exact Nat.lt_succ_of_le (length_of_readCodePoint h)
  case h_9 => exact Nat.lt_succ_of_le (length_of_readCodePoint h)
  case h_10 => simp at h
  all_goals
    simp only [Option.some.injEq, Prod.mk.injEq] at h
    obtain ⟨-, rfl⟩ := h
    simp

/-- A text between double quotes on one line. -/
def readBasic : List Char → Option (List Char × List Char)
  | [] => none
  | c :: cs =>
    if c = '"' then some ([], cs)
    else if c = '\\' then
      match _h : readEscape cs with
      | some (e, r) => (readBasic r).map (consText e)
      | none => none
    else if isPlain c then (readBasic cs).map (consText c)
    else none
termination_by cs => cs.length
decreasing_by
  · have := length_of_readEscape _h; simp only [List.length_cons]; omega
  · simp

/-- A text between single quotes on one line. -/
def readLiteral : List Char → Option (List Char × List Char)
  | [] => none
  | c :: cs =>
    if c = '\'' then some ([], cs)
    else if isPlain c then (readLiteral cs).map (consText c)
    else none

/-- The line end at the head, if there is one. -/
def readBreak : List Char → Option (List Char)
  | '\n' :: r => some r
  | '\r' :: '\n' :: r => some r
  | _ => none

/-- What follows the closing delimiter of three quotes `q` at a run of quotes: of at least three
quotes the last three close, at most two before them belong to the text. -/
def closing (q : Char) (cs : List Char) : Option (List Char × List Char) :=
  let run := (cs.takeWhile (· == q)).length
  if run < 3 then none
  else some (List.replicate (min (run - 3) 2) q, cs.drop (min (run - 3) 2 + 3))

/-- A blank inside a line. -/
def isSpace (c : Char) : Bool :=
  c == ' ' || c == '\t'

/-- The text without blanks and line ends at its head. -/
def skipBreaks : List Char → List Char
  | '\r' :: '\n' :: r => skipBreaks r
  | c :: r => if isSpace c || c == '\n' then skipBreaks r else c :: r
  | [] => []

/-- A backslash at the end of a line joins it with the next text: what follows that. -/
def readJoin (cs : List Char) : Option (List Char) :=
  (readBreak (cs.dropWhile isSpace)).map skipBreaks

theorem length_of_readBreak {cs r : List Char} (h : readBreak cs = some r) :
    r.length < cs.length := by
  unfold readBreak at h
  split at h
  · cases h
    exact Nat.lt_succ_self _
  · cases h
    simp only [List.length_cons]
    omega
  · exact absurd h nofun

theorem length_skipBreaks_le (cs : List Char) : (skipBreaks cs).length ≤ cs.length := by
  fun_induction skipBreaks cs with
  | case1 r ih => simp only [List.length_cons]; omega
  | case2 c r _ _ ih => simp only [List.length_cons]; omega
  | case3 => simp
  | case4 => simp

theorem length_dropWhile_le (p : Char → Bool) (cs : List Char) :
    (cs.dropWhile p).length ≤ cs.length :=
  (List.dropWhile_sublist p).length_le

theorem length_of_readJoin {cs r : List Char} (h : readJoin cs = some r) :
    r.length < cs.length := by
  obtain ⟨u, hu, rfl⟩ := Option.map_eq_some_iff.1 h
  have := length_of_readBreak hu
  have := length_skipBreaks_le u
  have := length_dropWhile_le isSpace cs
  omega

/-- A text between three double quotes. -/
def readMultiBasic : List Char → Option (List Char × List Char)
  | [] => none
  | c :: cs =>
    if c = '"' then
      match closing '"' (c :: cs) with
      | some result => some result
      | none => (readMultiBasic cs).map (consText '"')
    else if c = '\\' then
      match _h : readJoin cs with
      | some r => readMultiBasic r
      | none =>
        match _h : readEscape cs with
        | some (e, r) => (readMultiBasic r).map (consText e)
        | none => none
    else if isPlain c then (readMultiBasic cs).map (consText c)
    else
      match _h : readBreak (c :: cs) with
      | some r => (readMultiBasic r).map (consText '\n')
      | none => none
termination_by cs => cs.length
decreasing_by
  · simp
  · have := length_of_readJoin _h; simp only [List.length_cons]; omega
  · have := length_of_readEscape _h; simp only [List.length_cons]; omega
  · simp
  · exact length_of_readBreak _h

/-- A text between three single quotes. -/
def readMultiLiteral : List Char → Option (List Char × List Char)
  | [] => none
  | c :: cs =>
    if c = '\'' then
      match closing '\'' (c :: cs) with
      | some result => some result
      | none => (readMultiLiteral cs).map (consText '\'')
    else if isPlain c then (readMultiLiteral cs).map (consText c)
    else
      match _h : readBreak (c :: cs) with
      | some r => (readMultiLiteral r).map (consText '\n')
      | none => none
termination_by cs => cs.length
decreasing_by
  · simp
  · simp
  · exact length_of_readBreak _h

/-- The text without the line end at its head. -/
def skipBreak (cs : List Char) : List Char :=
  (readBreak cs).getD cs

/-- A quoted text in any form, from its opening delimiter on. -/
def readQuoted : List Char → Option (List Char × List Char)
  | '"' :: '"' :: '"' :: r => readMultiBasic (skipBreak r)
  | '"' :: r => readBasic r
  | '\'' :: '\'' :: '\'' :: r => readMultiLiteral (skipBreak r)
  | '\'' :: r => readLiteral r
  | _ => none

end RealModeTrace.Toml
