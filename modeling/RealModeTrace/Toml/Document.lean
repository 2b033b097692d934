import RealModeTrace.Toml.Statement

/-!
# TOML documents

The table that the statements of a document describe: an assignment works on the table of the last
header before it, or on the whole document if there is none.

A table in a document that begins with the key `dateKey` is another way to write a date.
-/

namespace RealModeTrace.Toml

/-- The entries of a document under construction and the table of its last header. -/
structure Draft where
  entries : Entries := []
  current : List String := []

/-- Add one statement to a draft. -/
def Draft.add (draft : Draft) : Statement → Option Draft
  | .assign key value =>
    (draft.entries.within (Entries.assign key value) draft.current).map fun entries =>
      { draft with entries }
  | .table key => do
    let entries ← draft.entries.within (Entries.openTable (key.getLastD "")) key.dropLast
    return ⟨entries, key⟩
  | .arrayTable key => do
    let entries ← draft.entries.within (Entries.openArrayTable (key.getLastD "")) key.dropLast
    return ⟨entries, key⟩

/-! ### Dates written as tables -/

/-- A table that begins with this key stands for a date. -/
def dateKey : String := "$__toml_private_datetime"

/-- The date of a table that begins with `dateKey`: what the text there spells. The other entries
mean nothing. -/
def dateOfEntries? : List (String × Value) → Option Value
  | (_, .string s) :: _ => (dateOfText? s).map .dateTime
  | _ => none

mutual

/-- A value with the date in place of each table that begins with `dateKey`. -/
def Value.withDates? : Value → Option Value
  | .array items => (itemsWithDates? items).map .array
  | .table entries =>
    if entries.head?.any (·.1 == dateKey) then dateOfEntries? entries
    else (entriesWithDates? entries).map .table
  | v => some v

/-- The items of an array with their dates. -/
def itemsWithDates? : List Value → Option (List Value)
  | [] => some []
  | v :: items => do
    let v ← v.withDates?
    let items ← itemsWithDates? items
    return v :: items

/-- The entries of a table with their dates. -/
def entriesWithDates? : List (String × Value) → Option (List (String × Value))
  | [] => some []
  | (key, v) :: entries => do
    let v ← v.withDates?
    let entries ← entriesWithDates? entries
    return (key, v) :: entries

end

/-- The entries of a document, which is a table even if it begins with `dateKey`. -/
def tableOfText? (s : String) : Option (List (String × Value)) := do
  let statements ← Statement.ofText? s
  let draft ← statements.foldlM Draft.add {}
  entriesWithDates? (entriesToValues draft.entries)

end RealModeTrace.Toml
