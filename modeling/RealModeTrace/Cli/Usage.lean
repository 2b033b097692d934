import RealModeTrace.Cli.Arguments
import RealModeTrace.Text.Numeral

/-!
# Usage and session names

* `Stop.text`: what is said when no command is run;
* `sessionName`: the name of a session from sixteen random bytes.
-/

namespace RealModeTrace.Cli

/-- How the program is used. -/
def usageText : String :=
  "Usage: realmodetrace [OPTIONS] replay [--log FILE] [--eager] [--interactive-only] SCRIPT\n" ++
    "       realmodetrace [OPTIONS] config [--defaults]\n\n" ++
    "Options:\n" ++
    "  -c, --config FILE    Configuration file with a [debugtrace] section\n" ++
    "  -f, --format FORMAT  human, json or json-compact\n" ++
    "  -v, --verbose        More diagnostics; may be repeated\n" ++
    "  -q, --quiet          No output but what was asked for\n" ++
    "  -h, --help           This text\n" ++
    "  -V, --version        The version\n"

/-- The version of the program. -/
def versionText : String :=
  "realmodetrace 0.1.0\n"

/-- What is said when no command is run. -/
def Stop.text : Stop → String
  | .help => usageText
  | .version => versionText
  | .misuse => "error: the command line cannot be understood\n\n" ++ usageText

/-- The digits of bytes. -/
def digits (bytes : List UInt8) : String :=
  String.join (bytes.map Text.hexByte)

/-- A session is named by sixteen bytes in five groups. -/
def sessionName (bytes : List UInt8) : String :=
  "-".intercalate [digits (bytes.take 4), digits ((bytes.drop 4).take 2),
    digits ((bytes.drop 6).take 2), digits ((bytes.drop 8).take 2), digits (bytes.drop 10)]

end RealModeTrace.Cli
