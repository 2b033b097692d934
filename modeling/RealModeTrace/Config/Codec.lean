import RealModeTrace.Config.Basic
import RealModeTrace.Json.Value

/-!
# Configurations as JSON

A configuration is an object with the options by name. All are written, and all may be left out.
-/

namespace RealModeTrace

/-- The value of an option. -/
def Setting.toJson : Setting → Json
  | .flag b => .bool b
  | .text s => .string s
  | .number n => .nat n.toNat

/-- The setting that a value stands for. -/
def Setting.ofJson? : Json → Option Setting
  | .bool b => some (.flag b)
  | .string s => some (.text s)
  | v => v.long?.map .number

namespace Config

/-- The options as an object. -/
def toJson (c : Config) : Json :=
  .object (Key.all.map fun key => (key.name, (c.get key).toJson))

/-- The configuration in an object, with defaults for what it leaves out. -/
def ofJson (v : Json) : Except DocumentProblem Config :=
  match v with
  | .object members => ofEntries Setting.ofJson? members
  | _ => .error .malformed

end Config

end RealModeTrace
