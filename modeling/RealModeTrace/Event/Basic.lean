import RealModeTrace.Machine.Flat
import RealModeTrace.Text.Utf8

/-!
# Events

What happens while an emulated program runs: twelve events that the tracer observes, and three that
only a replay knows, which stage the state of the machine between the others.

* `Event`, `Event.Kind`: an event and its kind, which has a name and a list of field names;
* `Event.typeName`: the type of an event, which is the name of its kind;
* `Event.isStaging`: the event changes the machine instead of reaching the tracer;
* `Event.applyTo`: that change.
-/

namespace RealModeTrace

/-- An event. -/
inductive Event
  /-- The instruction at `cs:ip` is about to be executed. -/
  | instructionFetched (cs ip : UInt16)
  | interruptInvoked (number : UInt8)
  | fileCreated (filename : String) (attributes : UInt16)
  | fileOpened (filename : String) (mode : UInt8)
  /-- Creating or opening a file gave a handle. -/
  | handleOpened (handle : UInt16) (filename : String)
  | fileClosed (handle : UInt16)
  /-- A read is about to be done, into `segment:offset`. -/
  | readIssued (handle requested segment offset : UInt16)
  /-- A read is done; `buffer` is a physical address. -/
  | readCompleted (handle actual : UInt16) (buffer : UInt32)
  | programExec (filename : String) (cmdline : Option String)
  | programTerminated (exitCode : UInt8)
  | programStayedResident (exitCode : UInt8)
  | videoModeChanging (oldMode newMode : UInt16)
  /-- Staging: set registers. -/
  | setRegisters (patch : RegisterPatch)
  /-- Staging: write bytes, and a text after them. -/
  | poke (address : UInt32) (bytes : List UInt8) (text : Option String)
  /-- Staging: a batch script starts or ends. -/
  | setBatch (running : Bool)
  deriving DecidableEq, Repr

namespace Event

/-- The kind of an event. -/
inductive Kind
  | instructionFetched
  | interruptInvoked
  | fileCreated
  | fileOpened
  | handleOpened
  | fileClosed
  | readIssued
  | readCompleted
  | programExec
  | programTerminated
  | programStayedResident
  | videoModeChanging
  | setRegisters
  | poke
  | setBatch
  deriving DecidableEq, Repr

namespace Kind

/-- All kinds. -/
def all : List Kind :=
  [.instructionFetched, .interruptInvoked, .fileCreated, .fileOpened, .handleOpened, .fileClosed,
    .readIssued, .readCompleted, .programExec, .programTerminated, .programStayedResident,
    .videoModeChanging, .setRegisters, .poke, .setBatch]

/-- The name of a kind. -/
def name : Kind → String
  | .instructionFetched => "instruction_fetched"
  | .interruptInvoked => "interrupt_invoked"
  | .fileCreated => "file_created"
  | .fileOpened => "file_opened"
  | .handleOpened => "handle_opened"
  | .fileClosed => "file_closed"
  | .readIssued => "read_issued"
  | .readCompleted => "read_completed"
  | .programExec => "program_exec"
  | .programTerminated => "program_terminated"
  | .programStayedResident => "program_stayed_resident"
  | .videoModeChanging => "video_mode_changing"
  | .setRegisters => "set_registers"
  | .poke => "poke"
  | .setBatch => "set_batch"

/-- The kind of a name. -/
def ofName? (name : String) : Option Kind :=
  all.find? (·.name == name)

/-- The names of the fields of a kind, in order. -/
def fieldNames : Kind → List String
  | .instructionFetched => ["cs", "ip"]
  | .interruptInvoked => ["int_num"]
  | .fileCreated => ["filename", "attributes"]
  | .fileOpened => ["filename", "mode"]
  | .handleOpened => ["handle", "filename"]
  | .fileClosed => ["handle"]
  | .readIssued => ["handle", "requested", "segment", "offset"]
  | .readCompleted => ["handle", "actual", "buffer"]
  | .programExec => ["filename", "cmdline"]
  | .programTerminated => ["exit_code"]
  | .programStayedResident => ["exit_code"]
  | .videoModeChanging => ["old_mode", "new_mode"]
  | .setRegisters => Register.all.map Register.name
  | .poke => ["address", "bytes", "text"]
  | .setBatch => ["running"]

theorem ofName?_name (kind : Kind) : ofName? kind.name = some kind := by
  cases kind <;> decide

end Kind

/-- The kind of an event. -/
def kind : Event → Kind
  | .instructionFetched .. => .instructionFetched
  | .interruptInvoked .. => .interruptInvoked
  | .fileCreated .. => .fileCreated
  | .fileOpened .. => .fileOpened
  | .handleOpened .. => .handleOpened
  | .fileClosed .. => .fileClosed
  | .readIssued .. => .readIssued
  | .readCompleted .. => .readCompleted
  | .programExec .. => .programExec
  | .programTerminated .. => .programTerminated
  | .programStayedResident .. => .programStayedResident
  | .videoModeChanging .. => .videoModeChanging
  | .setRegisters .. => .setRegisters
  | .poke .. => .poke
  | .setBatch .. => .setBatch

/-- The type of an event, as it is reported. -/
def typeName : Event → String
  | .instructionFetched .. => "instruction_fetched"
  | .interruptInvoked .. => "interrupt_invoked"
  | .fileCreated .. => "file_created"
  | .fileOpened .. => "file_opened"
  | .handleOpened .. => "handle_opened"
  | .fileClosed .. => "file_closed"
  | .readIssued .. => "read_issued"
  | .readCompleted .. => "read_completed"
  | .programExec .. => "program_exec"
  | .programTerminated .. => "program_terminated"
  | .programStayedResident .. => "program_stayed_resident"
  | .videoModeChanging .. => "video_mode_changing"
  | .setRegisters .. => "set_registers"
  | .poke .. => "poke"
  | .setBatch .. => "set_batch"

/-- The type is the name under which the event is written. -/
theorem kind_name (e : Event) : e.kind.name = e.typeName := by
  cases e <;> rfl

/-- The event changes the machine and does not reach the tracer. -/
def isStaging : Event → Bool
  | .setRegisters .. | .poke .. | .setBatch .. => true
  | _ => false

/-- The machine after an event, if the event is one that changes it. -/
def applyTo (event : Event) (m : FlatMachine) : Option FlatMachine :=
  match event with
  | .setRegisters patch => some { m with registers := patch.apply m.registers }
  | .poke address bytes text =>
    let m := m.poke address bytes
    match text with
    | some s => some (m.poke (address + UInt32.ofNat bytes.length) (Text.utf8 s).toList)
    | none => some m
  | .setBatch running => some { m with batchRunning := running }
  | _ => none

end Event

end RealModeTrace
