/-!
# Command lines

A command line names a command, `replay` or `config`, with its options. Options that apply to both
commands may stand before or after its name.

* Long options take their value after `=` or as the next argument, short ones also directly after
  the letter; short options without values may be joined. An option that takes a value waits for it,
  and the value is examined when the next option or positional argument comes, or at the end.
* An option may be given once before and once after the name of the command, and the latter counts;
  only `-v` may be repeated.
* After `--` all arguments are positional.

`Invocation.ofArguments` reads a command line, or says why the program stops without running one.
-/

namespace RealModeTrace.Cli

/-- The output of a command. -/
inductive Format
  | human
  | json
  | jsonCompact
  deriving DecidableEq, Repr

/-- The format of a name. -/
def Format.ofName? : String → Option Format
  | "human" => some .human
  | "json" => some .json
  | "json-compact" => some .jsonCompact
  | _ => none

/-- What a replay is asked to do. -/
structure ReplayOptions where
  script : String
  log : Option String := none
  eager : Bool := false
  interactiveOnly : Bool := false
  deriving DecidableEq, Repr

/-- What to run. -/
inductive Command
  | replay (options : ReplayOptions)
  | config (defaults : Bool)
  deriving DecidableEq, Repr

/-- A command with the options that apply to every command. -/
structure Invocation where
  command : Command
  config : Option String := none
  format : Format := .human
  verbosity : Nat := 0
  quiet : Bool := false
  deriving DecidableEq, Repr

/-- Why no command is run. -/
inductive Stop
  | help
  | version
  | misuse
  deriving DecidableEq, Repr

/-- The exit code of a program that stops. -/
def Stop.exitCode : Stop → UInt32
  | .misuse => 2
  | _ => 0

/-! ### Options -/

/-- An option. -/
inductive Opt
  | config
  | format
  | verbose
  | quiet
  | help
  | version
  | log
  | eager
  | interactiveOnly
  | defaults
  deriving DecidableEq, Repr

/-- Where on the command line an argument stands: before the command or after its name. -/
inductive Level
  | top
  | replay
  | config
  deriving DecidableEq, Repr

/-- The option takes a value. -/
def Opt.takesValue : Opt → Bool
  | .config | .format | .log => true
  | _ => false

/-- The option may be given at a level. -/
def Level.accepts : Level → Opt → Bool
  | .top, .version => true
  | .replay, .log | .replay, .eager | .replay, .interactiveOnly => true
  | .config, .defaults => true
  | _, .config | _, .format | _, .verbose | _, .quiet | _, .help => true
  | _, _ => false

/-- The option of a long name. -/
def Opt.ofLong? : String → Option Opt
  | "config" => some .config
  | "format" => some .format
  | "verbose" => some .verbose
  | "quiet" => some .quiet
  | "help" => some .help
  | "version" => some .version
  | "log" => some .log
  | "eager" => some .eager
  | "interactive-only" => some .interactiveOnly
  | "defaults" => some .defaults
  | _ => none

/-- The option of a letter. -/
def Opt.ofShort? : Char → Option Opt
  | 'c' => some .config
  | 'f' => some .format
  | 'v' => some .verbose
  | 'q' => some .quiet
  | 'h' => some .help
  | 'V' => some .version
  | 'l' => some .log
  | _ => none

/-- What an argument without a dash at its head, or the value of an option, is for. -/
inductive Slot
  | option (opt : Opt)
  | script
  deriving DecidableEq, Repr

/-- What was given at one level. -/
structure Given where
  config : Option String := none
  format : Option Format := none
  verbosity : Nat := 0
  quiet : Bool := false
  log : Option String := none
  eager : Bool := false
  interactiveOnly : Bool := false
  defaults : Bool := false
  script : Option String := none
  /-- A positional argument was seen. -/
  positional : Bool := false
  /-- A slot that was named last, with its value once that has come. -/
  waiting : Option (Slot × Option String) := none
  /-- The argument `--` was seen. -/
  onlyPositional : Bool := false

namespace Given

/-- Put a value into a slot. -/
def put (g : Given) : Slot → String → Except Stop Given
  | .option .config, v =>
    if v = "" || g.config.isSome then .error .misuse else .ok { g with config := some v }
  | .option .format, v =>
    match Format.ofName? v with
    | some f => if g.format.isSome then .error .misuse else .ok { g with format := some f }
    | none => .error .misuse
  | .option .log, v =>
    if g.log.isSome then .error .misuse else .ok { g with log := some v }
  | .option _, _ => .error .misuse
  | .script, v => if v = "" then .error .misuse else .ok { g with script := some v }

/-- Examine the slot that waits. -/
def settle (g : Given) : Except Stop Given :=
  match g.waiting with
  | none => .ok g
  | some (_, none) => .error .misuse
  | some (slot, some v) => put { g with waiting := none } slot v

/-- Give an option without a value. -/
def raise (g : Given) (opt : Opt) : Except Stop Given := do
  let g ← g.settle
  match opt with
  | .verbose => return { g with verbosity := g.verbosity + 1 }
  | .quiet => if g.quiet then throw .misuse else return { g with quiet := true }
  | .eager => if g.eager then throw .misuse else return { g with eager := true }
  | .interactiveOnly =>
    if g.interactiveOnly then throw .misuse else return { g with interactiveOnly := true }
  | .defaults => if g.defaults then throw .misuse else return { g with defaults := true }
  | .help => throw .help
  | .version => throw .version
  | .config | .format | .log => throw .misuse

/-- Give an option that takes a value, with the value if that is attached. -/
def name (g : Given) (opt : Opt) (value : Option String) : Except Stop Given := do
  let g ← g.settle
  match value with
  | some v => g.put (.option opt) v
  | none => return { g with waiting := some (.option opt, none) }

/-- An option waits for its value. -/
def awaitsValue (g : Given) : Option Opt :=
  match g.waiting with
  | some (.option opt, none) => some opt
  | _ => none

/-- Read an argument after two dashes. -/
def readLong (level : Level) (g : Given) (cs : List Char) : Except Stop Given :=
  let name := String.ofList (cs.takeWhile (· != '='))
  let value := match cs.dropWhile (· != '=') with
    | [] => none
    | _ :: v => some (String.ofList v)
  match (Opt.ofLong? name).filter level.accepts with
  | none => .error .misuse
  | some opt =>
    if opt.takesValue then g.name opt value
    else if value.isSome then .error .misuse
    else g.raise opt

/-- Read an argument after one dash: letters, and a value after a letter that takes one. -/
def readShort (level : Level) (g : Given) : List Char → Except Stop Given
  | [] => .ok g
  | c :: cs =>
    match (Opt.ofShort? c).filter level.accepts with
    | none => .error .misuse
    | some opt =>
      if opt.takesValue then
        match cs with
        | [] => g.name opt none
        | '=' :: v => g.name opt (some (String.ofList v))
        | v => g.name opt (some (String.ofList v))
      else do
        let g ← g.raise opt
        readShort level g cs

/-- Read a positional argument. -/
def readPositional (level : Level) (g : Given) (arg : String) : Except Stop Given :=
  if level = .replay && !g.positional then do
    let g ← g.settle
    return { g with positional := true, waiting := some (.script, some arg) }
  else .error .misuse

/-- Read an argument. -/
def readArgument (level : Level) (g : Given) (arg : String) : Except Stop Given :=
  if g.onlyPositional then g.readPositional level arg
  else match arg.toList with
    | ['-', '-'] => .ok { g with onlyPositional := true }
    | '-' :: '-' :: cs => g.readLong level cs
    | '-' :: c :: cs => g.readShort level (c :: cs)
    | _ =>
      match g.awaitsValue with
      | some opt => .ok { g with waiting := some (.option opt, some arg) }
      | none => g.readPositional level arg

/-- Read all arguments after the name of a command. -/
def readAll (level : Level) (g : Given) (args : List String) : Except Stop Given := do
  let g ← args.foldlM (readArgument level) g
  g.settle

end Given

/-! ### Commands -/

/-- The names of the commands. -/
def commandNames : List String :=
  ["replay", "config", "help"]

/-- What was given before the name of a command, that name, and the arguments after it. -/
def splitCommand (g : Given) : List String → Except Stop (Given × String × List String)
  | [] => .error .misuse
  | arg :: args =>
    if !g.onlyPositional && g.awaitsValue.isNone && commandNames.contains arg then
      .ok (g, arg, args)
    else do
      let g ← g.readArgument .top arg
      splitCommand g args

/-- The invocation of a command from what was given before and after its name. -/
def invocation (before after : Given) (command : Command) : Invocation where
  command
  config := after.config <|> before.config
  format := (after.format <|> before.format).getD .human
  verbosity := if after.verbosity = 0 then before.verbosity else after.verbosity
  quiet := before.quiet || after.quiet

/-- The help command takes the name of a command at most. -/
def helpStop (args : List String) : Stop :=
  match args with
  | [] => .help
  | [name] => if commandNames.contains name then .help else .misuse
  | _ => .misuse

/-- The invocation that a command line asks for. -/
def Invocation.ofArguments (args : List String) : Except Stop Invocation := do
  let (before, name, args) ← splitCommand {} args
  if name = "help" then throw (helpStop args)
  if name = "replay" then
    let after ← Given.readAll .replay {} args
    match after.script with
    | none => throw .misuse
    | some script =>
      let before ← before.settle
      return invocation before after
        (.replay ⟨script, after.log, after.eager, after.interactiveOnly⟩)
  else
    let after ← Given.readAll .config {} args
    let before ← before.settle
    return invocation before after (.config after.defaults)

end RealModeTrace.Cli
