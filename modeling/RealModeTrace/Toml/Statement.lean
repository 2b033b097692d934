import RealModeTrace.Toml.Number
import RealModeTrace.Toml.Quoted

/-!
# Statements of a TOML document

A document is a sequence of lines, each of which is empty, a header or an assignment, and may end
with a comment.

* `Statement`: a header or an assignment;
* `readValue`: a value; arrays and inline tables nest at most `nestingLimit` deep;
* `Statement.ofText?`: the statements of a document.
-/

namespace RealModeTrace.Toml

/-- The deepest nesting of arrays and inline tables. -/
def nestingLimit : Nat := 79

/-- The greatest number of parts of a dotted key. -/
def keyLimit : Nat := 79

/-- A line of a document that says something. -/
inductive Statement
  /-- The assignment `key = value`. -/
  | assign (key : List String) (value : Value)
  /-- The header `[key]`. -/
  | table (key : List String)
  /-- The header `[[key]]`. -/
  | arrayTable (key : List String)

/-! ### Keys -/

/-- The text without blanks at its head. -/
def skipSpaces (cs : List Char) : List Char :=
  cs.dropWhile isSpace

/-- A character of a key without quotes. -/
def isBare (c : Char) : Bool :=
  c.isAlphanum || c == '_' || c == '-'

/-- One part of a key. -/
def readKeyPart : List Char → Option (List Char × List Char)
  | '"' :: r => readBasic r
  | '\'' :: r => readLiteral r
  | c :: r => if isBare c then some (c :: r.takeWhile isBare, r.dropWhile isBare) else none
  | [] => none

/-- The parts of a key, at most `limit` of them, with points between them and blanks around each. -/
def readKeyParts : (limit : Nat) → List Char → Option (List String × List Char)
  | 0, _ => none
  | limit + 1, cs => do
    let (part, r) ← readKeyPart (skipSpaces cs)
    match skipSpaces r with
    | '.' :: r =>
      let (parts, r) ← readKeyParts limit r
      some (String.ofList part :: parts, r)
    | r => some ([String.ofList part], r)

/-- A key. -/
def readKey (cs : List Char) : Option (List String × List Char) :=
  readKeyParts keyLimit cs

/-! ### Tables under construction -/

/-- How a table came into being. -/
inductive Origin
  /-- It was named on the way to the table of a header. -/
  | implied
  /-- It was named on the way to the last part of a dotted key. -/
  | dotted
  /-- It has a header of its own. -/
  | headed
  deriving DecidableEq, Repr

/-- An entry of a table under construction. The tables of an array stand newest first. -/
inductive Item
  | value (value : Value)
  | table (origin : Origin) (entries : List (String × Item))
  | tables (newestFirst : List (List (String × Item)))

/-- The entries of a table under construction. -/
abbrev Entries := List (String × Item)

/-- Replace or add the entry of a key by what `f` makes of the present one. -/
def Entries.alter (key : String) (f : Option Item → Option Item) : Entries → Option Entries
  | [] => (f none).map fun item => [(key, item)]
  | (k, item) :: entries =>
    if k = key then (f (some item)).map fun item => (k, item) :: entries
    else (Entries.alter key f entries).map ((k, item) :: ·)

/-- Assign a value to a dotted key. A key is assigned once, and a dotted key adds only to tables
that dotted keys made. -/
def Entries.assign : List String → Value → Entries → Option Entries
  | [], _, _ => none
  | [key], value, entries =>
    entries.alter key fun
      | none => some (.value value)
      | some _ => none
  | key :: next :: rest, value, entries =>
    entries.alter key fun
      | none => (Entries.assign (next :: rest) value []).map (.table .dotted)
      | some (.value _) => none
      | some (.table origin inner) =>
        if origin = .headed || (rest = [] && origin = .implied) then none
        else (Entries.assign (next :: rest) value inner).map (.table origin)
      | some (.tables []) => none
      | some (.tables (newest :: older)) =>
        if rest = [] then none
        else (Entries.assign (next :: rest) value newest).map fun t => .tables (t :: older)

/-- Work on the table that a header names, and make the tables on the way to it that are missing. Of
an array of tables the newest is meant. -/
def Entries.within (f : Entries → Option Entries) : List String → Entries → Option Entries
  | [], entries => f entries
  | key :: rest, entries =>
    entries.alter key fun
      | none => (Entries.within f rest []).map (.table .implied)
      | some (.value _) => none
      | some (.table origin inner) => (Entries.within f rest inner).map (.table origin)
      | some (.tables []) => none
      | some (.tables (newest :: older)) =>
        (Entries.within f rest newest).map fun t => .tables (t :: older)

/-- Open the table of a header: it is new, or it was only implied so far. It is the last entry from
then on. -/
def Entries.openTable (key : String) (entries : Entries) : Option Entries :=
  match entries.lookup key with
  | none => some (entries ++ [(key, .table .headed [])])
  | some (.table .implied inner) =>
    some (entries.filter (·.1 != key) ++ [(key, .table .headed inner)])
  | some _ => none

/-- Add a table to the array of a header. -/
def Entries.openArrayTable (key : String) (entries : Entries) : Option Entries :=
  entries.alter key fun
    | none => some (.tables [[]])
    | some (.tables tables) => some (.tables ([] :: tables))
    | some _ => none

mutual

/-- The value of an entry. -/
def Item.toValue : Item → Value
  | .value v => v
  | .table _ entries => .table (entriesToValues entries)
  | .tables tables => .array (tablesToValues tables).reverse

/-- The values of entries. -/
def entriesToValues : List (String × Item) → List (String × Value)
  | [] => []
  | (key, item) :: entries => (key, item.toValue) :: entriesToValues entries

/-- The tables of an array as values. -/
def tablesToValues : List (List (String × Item)) → List Value
  | [] => []
  | entries :: tables => .table (entriesToValues entries) :: tablesToValues tables

end

/-- The table that assignments between braces make. -/
def inlineTable? (pairs : List (List String × Value)) : Option Value :=
  (pairs.foldlM (fun entries pair => Entries.assign pair.1 pair.2 entries) []).map fun entries =>
    .table (entriesToValues entries)

/-! ### Values -/

/-- A reader gives a value and what follows it. -/
abbrev ValueReader := List Char → Option (Value × List Char)

/-- The text without blanks, line ends and comments at its head. -/
def skipTrivia : List Char → List Char
  | '\r' :: '\n' :: r => skipTrivia r
  | '#' :: r => skipTrivia (r.dropWhile isPlain)
  | c :: r => if isSpace c || c == '\n' then skipTrivia r else c :: r
  | [] => []
termination_by cs => cs.length
decreasing_by
  · simp only [List.length_cons]; omega
  · have := length_dropWhile_le isPlain r; simp only [List.length_cons]; omega
  · simp

/-- The items of an array, fewer than `limit`, and what follows its bracket. A last comma is
allowed. -/
def readItems (item : ValueReader) : (limit : Nat) → List Char → Option (List Value × List Char)
  | 0, _ => none
  | limit + 1, cs =>
    match skipTrivia cs with
    | ']' :: r => some ([], r)
    | start => do
      let (v, r) ← item start
      match skipTrivia r with
      | ']' :: r => some ([v], r)
      | ',' :: r =>
        let (vs, r) ← readItems item limit r
        some (v :: vs, r)
      | _ => none

/-- The assignments of an inline table that has some, at most `limit` of them, and what follows its
brace. -/
def readPairs (item : ValueReader) :
    (limit : Nat) → List Char → Option (List (List String × Value) × List Char)
  | 0, _ => none
  | limit + 1, cs => do
    let (key, r) ← readKey cs
    let (v, r) ← item (skipSpaces (← expect '=' r))
    match skipSpaces r with
    | '}' :: r => some ([(key, v)], r)
    | ',' :: r =>
      let (pairs, r) ← readPairs item limit r
      some ((key, v) :: pairs, r)
    | _ => none

/-- An inline table after its opening brace. -/
def readInlineTable (item : ValueReader) (limit : Nat) (cs : List Char) :
    Option (Value × List Char) :=
  match skipSpaces cs with
  | '}' :: r => some (.table [], r)
  | _ => do
    let (pairs, r) ← readPairs item limit cs
    (inlineTable? pairs).map fun v => (v, r)

/-- A value that holds no other values. -/
def readScalar (cs : List Char) : Option (Value × List Char) :=
  match cs with
  | 't' :: 'r' :: 'u' :: 'e' :: r => some (.boolean true, r)
  | 'f' :: 'a' :: 'l' :: 's' :: 'e' :: r => some (.boolean false, r)
  | c :: _ =>
    if c = '"' || c = '\'' then
      (readQuoted cs).map fun result => (.string (String.ofList result.1), result.2)
    else readNumber cs
  | [] => none

/-- A value in which arrays and inline tables nest at most `depth` deep and hold fewer than `limit`
values each. -/
def readValue (limit : Nat) : (depth : Nat) → ValueReader
  | 0, cs => readScalar cs
  | depth + 1, cs =>
    match cs with
    | '[' :: r => (readItems (readValue limit depth) limit r).map fun result =>
        (.array result.1, result.2)
    | '{' :: r => readInlineTable (readValue limit depth) limit r
    | cs => readScalar cs

/-! ### Lines -/

/-- What follows the rest of a line that holds at most a comment. -/
def endLine (cs : List Char) : Option (List Char) :=
  let rest := match skipSpaces cs with
    | '#' :: r => r.dropWhile isPlain
    | r => r
  if rest = [] then some [] else readBreak rest

/-- The statement at the head of a line, if the line is not empty, and the rest of the line. -/
def readStatement (limit : Nat) (cs : List Char) : Option (Option Statement × List Char) :=
  match skipSpaces cs with
  | '[' :: '[' :: r => do
    let (key, r) ← readKey r
    some (some (.arrayTable key), ← expect ']' (← expect ']' r))
  | '[' :: r => do
    let (key, r) ← readKey r
    some (some (.table key), ← expect ']' r)
  | [] => some (none, [])
  | c :: r =>
    if c = '#' || c = '\n' || c = '\r' then some (none, c :: r)
    else do
      let (key, r) ← readKey (c :: r)
      let (v, r) ← readValue limit nestingLimit (skipSpaces (← expect '=' r))
      some (some (.assign key v), r)

/-- The statements of the lines of a text, of which there are at most `lines`. -/
def readStatements (limit : Nat) : (lines : Nat) → List Char → Option (List Statement)
  | _, [] => some []
  | 0, _ => none
  | lines + 1, cs => do
    let (statement, r) ← readStatement limit cs
    let statements ← readStatements limit lines (← endLine r)
    some (statement.toList ++ statements)

/-- The text without a byte order mark before it. -/
def skipMark : List Char → List Char
  | '\uFEFF' :: cs => cs
  | cs => cs

/-- The statements of a document. No array in it has more items, and the document has no more lines,
than there are characters. -/
def Statement.ofText? (s : String) : Option (List Statement) :=
  let cs := skipMark s.toList
  readStatements (cs.length + 1) cs.length cs

end RealModeTrace.Toml
