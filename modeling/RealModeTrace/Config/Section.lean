import RealModeTrace.Config.Basic
import RealModeTrace.Storage.FileTree
import RealModeTrace.Toml.Document

/-!
# The `[debugtrace]` section

A configuration is written as a section of a TOML document, one option to a line. It is read from
the section of a document that has one, other content of which is ignored, and else from the
document itself.

* `Config.toSection`, `defaultsSection`: the writers, the latter with the help texts as comments;
* `Config.ofText`: the reader;
* `Config.load`: read and validate a file.
-/

namespace RealModeTrace

/-- The name of the section. -/
def sectionName : String := "debugtrace"

/-- The value of an option as it stands in a document. -/
def Setting.written : Setting → String
  | .flag true => "true"
  | .flag false => "false"
  | .text s => Toml.quoted s
  | .number n => Text.decimal n.toNat

/-- The setting that a value of a document stands for. A date stands for its spelling. -/
def Setting.ofToml? : Toml.Value → Option Setting
  | .boolean b => some (.flag b)
  | .string s => some (.text s)
  | .dateTime spelling => some (.text spelling)
  | .integer (.ofNat n) => if n < UInt32.size then some (.number (UInt32.ofNat n)) else none
  | _ => none

namespace Config

/-- The line of an option. -/
def line (c : Config) (key : Key) : String :=
  key.name ++ " = " ++ (c.get key).written ++ "\n"

/-- The options as a section. -/
def toSection (c : Config) : String :=
  "[" ++ sectionName ++ "]\n" ++ String.join (Key.all.map c.line)

/-- The default options as a section, each after its help text. -/
def defaultsSection : String :=
  "[" ++ sectionName ++ "]\n" ++
    String.join (Key.all.map fun key => "# " ++ key.help ++ "\n" ++ line {} key)

/-- The table with the options of a document. -/
def optionTable (entries : List (String × Toml.Value)) :
    Except ConfigError (List (String × Toml.Value)) :=
  match entries.lookup sectionName with
  | some (.table inner) => .ok inner
  | some _ => .error .sectionNotTable
  | none => .ok entries

/-- The configuration in a document. -/
def ofText (s : String) : Except ConfigError Config :=
  match Toml.tableOfText? s with
  | none => .error (.document .malformed)
  | some entries => do
    let options ← optionTable entries
    (ofEntries Setting.ofToml? options).mapError .document

/-- The valid configuration in a file. -/
def load (files : FileTree) (path : String) : Except ConfigError Config := do
  let text ← (files.readText path).mapError (.io path)
  let c ← ofText text
  c.validate
  return c

end Config

end RealModeTrace
