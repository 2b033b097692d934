import RealModeTrace.Cli.Arguments
import RealModeTrace.Cli.Outcome
import RealModeTrace.Config.Codec
import RealModeTrace.Json.Printer

/-!
# The config command

The command shows the defaults with their help texts, or validates a configuration file and shows
what follows from it.
-/

namespace RealModeTrace.Cli

/-- The documented defaults as JSON: for each option its default, its help text and its name. -/
def defaultsJson : Json :=
  .array (Config.Key.all.map fun key =>
    .object [("default", .string (({} : Config).get key).written), ("help", .string key.help),
      ("name", .string key.name)])

/-- The documented defaults. -/
def defaultsText : Format → String
  | .human => Config.defaultsSection
  | .json => defaultsJson.pretty ++ "\n"
  | .jsonCompact => defaultsJson.compact ++ "\n"

/-- When tracing starts, in words. -/
def activationWords (c : Config) : String :=
  if !c.enabled then "disabled"
  else if c.eager then "at startup"
  else "on first program load"

/-- A valid configuration as JSON. -/
def configJson (path : String) (c : Config) : Json :=
  .object [("path", .string path), ("valid", .bool true), ("config", c.toJson),
    ("log_target", .string c.logTarget.display), ("eager", .bool c.eager),
    ("hex_dump_bytes", .nat c.dumpLimit), ("sample_rate", .nat c.stride.toNat)]

/-- What is told about a valid configuration. -/
def configText (path : String) (c : Config) : Format → String
  | .human =>
    "Configuration is valid: " ++ path ++ "\n" ++
      "  Log target: " ++ c.logTarget.display ++ "\n" ++
      "  Activation: " ++ activationWords c ++ "\n\n" ++ c.toSection
  | .json => (configJson path c).pretty ++ "\n"
  | .jsonCompact => (configJson path c).compact ++ "\n"

/-- Show the defaults or a configuration file. -/
def inspect (world : World) (invocation : Invocation) (defaults : Bool) : Outcome :=
  if defaults then ⟨world, .ok (defaultsText invocation.format)⟩
  else match invocation.config with
    | none => ⟨world, .error .noConfigFile⟩
    | some path =>
      match Config.load world.files path with
      | .ok c => ⟨world, .ok (configText path c invocation.format)⟩
      | .error error => ⟨world, .error (.invalidConfig path error)⟩

end RealModeTrace.Cli
