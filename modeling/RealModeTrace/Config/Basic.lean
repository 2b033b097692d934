import RealModeTrace.Exclusion
import RealModeTrace.LogTarget
import RealModeTrace.Storage.FileError
import RealModeTrace.Text.Numeral

/-!
# Trace configuration

The twelve options of a trace session.

* `Config.Key`: an option, with its name in documents and its help text;
* `Config`: a value for every option; `Config.get` and `Config.set?` reach an option by key;
* `Config.eager`, `Config.dumpLimit`, `Config.stride`, `Config.logTarget`: what follows from them;
* `Config.validate`: the first option whose value is out of range or malformed;
* `Config.sanitized`: out-of-range numbers moved to the nearest bound.
-/

namespace RealModeTrace

/-- The most bytes shown after a file read. -/
def dumpCeiling : UInt32 := 512

/-- The options, in the order of the section. -/
inductive Config.Key
  | enabled
  | logfile
  | instructions
  | interrupts
  | fileIo
  | videoModes
  | waitForLoad
  | excludedInterrupts
  | dumpBytes
  | sampleRate
  | maxLogSizeMb
  | interactiveOnly
  deriving DecidableEq, Repr

namespace Config.Key

/-- All options in order. -/
def all : List Key :=
  [.enabled, .logfile, .instructions, .interrupts, .fileIo, .videoModes, .waitForLoad,
    .excludedInterrupts, .dumpBytes, .sampleRate, .maxLogSizeMb, .interactiveOnly]

/-- The name of an option in a document. -/
def name : Key → String
  | .enabled => "enabled"
  | .logfile => "logfile"
  | .instructions => "trace_instructions"
  | .interrupts => "trace_interrupts"
  | .fileIo => "trace_file_io"
  | .videoModes => "trace_video_modes"
  | .waitForLoad => "auto_trace_on_exec"
  | .excludedInterrupts => "exclude_interrupts"
  | .dumpBytes => "file_read_hex_dump_bytes"
  | .sampleRate => "instruction_sample_rate"
  | .maxLogSizeMb => "max_log_size_mb"
  | .interactiveOnly => "interactive_only"

/-- What an option is for. -/
def help : Key → String
  | .enabled => "Enable the dynamic debugging and reverse-engineering trace system."
  | .logfile => "Path of the trace log file, or 'stdout' to write to the console."
  | .instructions => "Log each executed x86 instruction with register state."
  | .interrupts => "Log software interrupt calls with register state."
  | .fileIo => "Log DOS file I/O operations (create, open, read, close) with hex dumps."
  | .videoModes => "Log INT 10h video mode switches."
  | .waitForLoad => "Start full tracing when a program is loaded via INT 21h/AH=4Bh (EXEC)."
  | .excludedInterrupts => "Comma-separated interrupt numbers (hex) to exclude from logging."
  | .dumpBytes => "Bytes to hex-dump for each file read (0 disables, at most 512)."
  | .sampleRate => "Log every Nth instruction (1 logs all)."
  | .maxLogSizeMb => "Maximum log size before rotation (0 = unlimited). Currently not enforced."
  | .interactiveOnly =>
    "Only activate on EXEC from the interactive prompt, not from batch scripts."

/-- The option of a name. -/
def ofName? (name : String) : Option Key :=
  all.find? (·.name == name)

theorem ofName?_name (key : Key) : ofName? key.name = some key := by
  cases key <;> decide

end Config.Key

/-- The value of an option. -/
inductive Setting
  | flag (b : Bool)
  | text (s : String)
  | number (n : UInt32)
  deriving DecidableEq, Repr

/-- The options of a session. -/
structure Config where
  /-- The master switch. -/
  enabled : Bool := false
  /-- The log target by name. -/
  logfile : String := "game_trace.log"
  instructions : Bool := true
  interrupts : Bool := true
  fileIo : Bool := true
  videoModes : Bool := true
  /-- Tracing starts with the first program load instead of at once. -/
  waitForLoad : Bool := true
  excludedInterrupts : String := "08,1C"
  dumpBytes : UInt32 := 64
  sampleRate : UInt32 := 1
  /-- Accepted and reported, with no effect on the log. -/
  maxLogSizeMb : UInt32 := 0
  /-- A program load from a batch script does not start tracing. -/
  interactiveOnly : Bool := false
  deriving DecidableEq, Repr, Inhabited

/-- Why a document is no configuration. -/
inductive DocumentProblem
  | malformed
  | unknownOption (name : String)
  | wrongType (name : String)
  deriving DecidableEq, Repr

/-- The wording of a document problem. -/
def DocumentProblem.message : DocumentProblem → String
  | .malformed => "the text is not a TOML document"
  | .unknownOption name => "unknown option '" ++ name ++ "'"
  | .wrongType name => "option '" ++ name ++ "' has a value of the wrong type"

/-- Why a configuration cannot be used. -/
inductive ConfigError
  | io (path : String) (cause : FileError)
  | document (problem : DocumentProblem)
  | sectionNotTable
  | outOfRange (option : Config.Key) (value : Nat) (expected : String)
  | invalidExclusion (token : String)
  deriving DecidableEq, Repr

namespace ConfigError

/-- The wording of a configuration error. -/
def message : ConfigError → String
  | .io path cause => "IO error reading '" ++ path ++ "': " ++ cause.message
  | .document problem => "Invalid configuration document: " ++ problem.message
  | .sectionNotTable => "The [debugtrace] section must be a table"
  | .outOfRange option value expected =>
    "Option '" ++ option.name ++ "' is out of range: " ++ Text.decimal value ++
      " (expected " ++ expected ++ ")"
  | .invalidExclusion token =>
    "Invalid interrupt exclusion token '" ++ token ++ "' (expected two hex digits)"

/-- The wording of the error and of its causes, outermost first. -/
def chain (e : ConfigError) : List String :=
  e.message :: match e with
    | .io _ cause => [cause.message]
    | .document problem => [problem.message]
    | _ => []

end ConfigError

namespace Config

/-- The value of an option. -/
def get (c : Config) : Key → Setting
  | .enabled => .flag c.enabled
  | .logfile => .text c.logfile
  | .instructions => .flag c.instructions
  | .interrupts => .flag c.interrupts
  | .fileIo => .flag c.fileIo
  | .videoModes => .flag c.videoModes
  | .waitForLoad => .flag c.waitForLoad
  | .excludedInterrupts => .text c.excludedInterrupts
  | .dumpBytes => .number c.dumpBytes
  | .sampleRate => .number c.sampleRate
  | .maxLogSizeMb => .number c.maxLogSizeMb
  | .interactiveOnly => .flag c.interactiveOnly

/-- The configuration with one option replaced, if the value has the type of the option. -/
def set? (c : Config) : Key → Setting → Option Config
  | .enabled, .flag b => some { c with enabled := b }
  | .logfile, .text s => some { c with logfile := s }
  | .instructions, .flag b => some { c with instructions := b }
  | .interrupts, .flag b => some { c with interrupts := b }
  | .fileIo, .flag b => some { c with fileIo := b }
  | .videoModes, .flag b => some { c with videoModes := b }
  | .waitForLoad, .flag b => some { c with waitForLoad := b }
  | .excludedInterrupts, .text s => some { c with excludedInterrupts := s }
  | .dumpBytes, .number n => some { c with dumpBytes := n }
  | .sampleRate, .number n => some { c with sampleRate := n }
  | .maxLogSizeMb, .number n => some { c with maxLogSizeMb := n }
  | .interactiveOnly, .flag b => some { c with interactiveOnly := b }
  | _, _ => none

/-- Set one named option; `read` gives the setting that a value of the document stands for. -/
def setNamed {α : Type} (read : α → Option Setting) (c : Config) (entry : String × α) :
    Except DocumentProblem Config :=
  match Key.ofName? entry.1 with
  | none => .error (.unknownOption entry.1)
  | some key =>
    match (read entry.2).bind (c.set? key) with
    | some c => .ok c
    | none => .error (.wrongType entry.1)

/-- The configuration with the options of a document; absent ones have their default. -/
def ofEntries {α : Type} (read : α → Option Setting) (entries : List (String × α)) :
    Except DocumentProblem Config :=
  entries.foldlM (setNamed read) {}

/-- The log target that the options name. -/
def logTarget (c : Config) : LogTarget :=
  .ofText c.logfile

/-- Tracing starts at once. -/
def eager (c : Config) : Bool :=
  c.enabled && !c.waitForLoad

/-- The most bytes shown after a file read. -/
def dumpLimit (c : Config) : Nat :=
  (min c.dumpBytes dumpCeiling).toNat

/-- Every so many-th instruction is logged. -/
def stride (c : Config) : UInt32 :=
  max c.sampleRate 1

/-- The first fault of the options, if there is one. -/
def validate (c : Config) : Except ConfigError Unit :=
  if dumpCeiling < c.dumpBytes then .error (.outOfRange .dumpBytes c.dumpBytes.toNat "0..=512")
  else if c.sampleRate = 0 then .error (.outOfRange .sampleRate 0 ">= 1")
  else match Exclusion.firstMalformed? c.excludedInterrupts with
    | some token => .error (.invalidExclusion token)
    | none => .ok ()

/-- The options with numbers out of range moved to the nearest bound. -/
def sanitized (c : Config) : Config :=
  { c with dumpBytes := min c.dumpBytes dumpCeiling, sampleRate := max c.sampleRate 1 }

/-- An option that was set to its present value is as before. -/
theorem set?_get (c : Config) (key : Key) : c.set? key (c.get key) = some c := by
  cases key <;> rfl

end Config

end RealModeTrace
