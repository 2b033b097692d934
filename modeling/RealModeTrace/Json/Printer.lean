import RealModeTrace.Json.Value
import RealModeTrace.Text.Numeral

/-!
# Writing JSON

* `compact`: a value on one line, without white space;
* `pretty`: a value over lines, indented by two spaces, with empty arrays and objects on one line.

Both are made of pieces, so that the time is linear in the length of the text.
-/

namespace RealModeTrace.Json

/-- A character inside a string. -/
def escapeChar (c : Char) : List Char :=
  if c = '"' then ['\\', '"']
  else if c = '\\' then ['\\', '\\']
  else if c = '\x08' then ['\\', 'b']
  else if c = '\t' then ['\\', 't']
  else if c = '\n' then ['\\', 'n']
  else if c = '\x0c' then ['\\', 'f']
  else if c = '\r' then ['\\', 'r']
  else if c < ' ' then
    ['\\', 'u', '0', '0', (Text.hexDigit (c.toNat / 16)).toLower,
      (Text.hexDigit (c.toNat % 16)).toLower]
  else [c]

/-- A string between its quotes. -/
def quoted (s : String) : String :=
  String.ofList ('"' :: s.toList.flatMap escapeChar ++ ['"'])

/-- The text of a value that holds no other values. -/
def scalarText : Json → String
  | .null => "null"
  | .bool true => "true"
  | .bool false => "false"
  | .integer n => Text.signed n
  | .real spelling => spelling
  | .string s => quoted s
  | .array _ => "[]"
  | .object _ => "\x7b\x7d"

mutual

/-- The pieces of a value on one line. -/
def compactPieces : Json → List String
  | .array items => "[" :: compactItems items ++ ["]"]
  | .object members => "\x7b" :: compactMembers members ++ ["\x7d"]
  | v => [v.scalarText]

/-- The pieces of items with commas between them. -/
def compactItems : List Json → List String
  | [] => []
  | [v] => compactPieces v
  | v :: vs => compactPieces v ++ "," :: compactItems vs

/-- The pieces of members with commas between them. -/
def compactMembers : List (String × Json) → List String
  | [] => []
  | [(name, v)] => quoted name :: ":" :: compactPieces v
  | (name, v) :: vs => quoted name :: ":" :: compactPieces v ++ "," :: compactMembers vs

end

/-- A value on one line. -/
def compact (v : Json) : String :=
  String.join v.compactPieces

/-- The start of a line at a depth. -/
def newLine (depth : Nat) : String :=
  String.ofList ('\n' :: List.replicate (2 * depth) ' ')

mutual

/-- The pieces of a value over lines. -/
def prettyPieces (depth : Nat) : Json → List String
  | .array [] => ["[]"]
  | .array (v :: vs) => "[" :: prettyItems (depth + 1) (v :: vs) ++ [newLine depth, "]"]
  | .object [] => ["\x7b\x7d"]
  | .object (v :: vs) =>
    "\x7b" :: prettyMembers (depth + 1) (v :: vs) ++ [newLine depth, "\x7d"]
  | v => [v.scalarText]

/-- The pieces of items, each on a line. -/
def prettyItems (depth : Nat) : List Json → List String
  | [] => []
  | [v] => newLine depth :: prettyPieces depth v
  | v :: vs => newLine depth :: prettyPieces depth v ++ "," :: prettyItems depth vs

/-- The pieces of members, each on a line. -/
def prettyMembers (depth : Nat) : List (String × Json) → List String
  | [] => []
  | [(name, v)] => newLine depth :: quoted name :: ": " :: prettyPieces depth v
  | (name, v) :: vs =>
    newLine depth :: quoted name :: ": " :: prettyPieces depth v ++ "," :: prettyMembers depth vs

end

/-- A value over lines. -/
def pretty (v : Json) : String :=
  String.join (v.prettyPieces 0)

end RealModeTrace.Json
