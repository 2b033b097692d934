import RealModeTrace.Event.Basic
import RealModeTrace.Json.Printer
import RealModeTrace.Json.Reader

/-!
# Events as JSON

An event is an object with the name of its kind under `event` and a member for each of its fields,
or an array of that name and the fields in order.

* Members with other names are ignored. No member of the event may be repeated.
* A command line, a text, the bytes and the registers may be absent; all but the bytes may be
  `null`.
* An array may leave out fields at its end that may be absent.

`toJson` and `render` write an event with all of its members, `ofJson?` and `parse?` read it.
-/

namespace RealModeTrace.Event

/-- The name of the member that holds the kind. -/
def kindMember : String := "event"

/-! ### Writing -/

/-- The values of the fields of an event, in order. -/
def fieldValues : Event → List Json
  | .instructionFetched cs ip => [.word cs, .word ip]
  | .interruptInvoked number => [.nat number.toNat]
  | .fileCreated filename attributes => [.string filename, .word attributes]
  | .fileOpened filename mode => [.string filename, .nat mode.toNat]
  | .handleOpened handle filename => [.word handle, .string filename]
  | .fileClosed handle => [.word handle]
  | .readIssued handle requested segment offset =>
    [.word handle, .word requested, .word segment, .word offset]
  | .readCompleted handle actual buffer => [.word handle, .word actual, .nat buffer.toNat]
  | .programExec filename cmdline => [.string filename, .ofOption .string cmdline]
  | .programTerminated exitCode => [.nat exitCode.toNat]
  | .programStayedResident exitCode => [.nat exitCode.toNat]
  | .videoModeChanging oldMode newMode => [.word oldMode, .word newMode]
  | .setRegisters patch => Register.all.map fun r => .ofOption .word (patch.get r)
  | .poke address bytes text =>
    [.nat address.toNat, .array (bytes.map fun b => .nat b.toNat), .ofOption .string text]
  | .setBatch running => [.bool running]

/-- The members of an event after the first. -/
def members (e : Event) : List (String × Json) :=
  e.kind.fieldNames.zip e.fieldValues

/-- An event as an object. -/
def toJson (e : Event) : Json :=
  .object ((kindMember, .string e.kind.name) :: e.members)

/-- An event as an array. -/
def toArray (e : Event) : Json :=
  .array (.string e.kind.name :: e.fieldValues)

/-- The text of an event. -/
def render (e : Event) : String :=
  e.toJson.compact

/-! ### Reading -/

/-- Access to the fields of an event by name. -/
abbrev Fields := String → Option Json

namespace Fields

/-- A field that has to be there. -/
def required {α : Type} (fields : Fields) (read : Json → Option α) (name : String) : Option α :=
  (fields name).bind read

/-- A field that may be absent or `null`. -/
def optional {α : Type} (fields : Fields) (read : Json → Option α) (name : String) :
    Option (Option α) :=
  match fields name with
  | none => some none
  | some v => v.optional? read

/-- A list of bytes that may be absent. -/
def bytes (fields : Fields) (name : String) : Option (List UInt8) :=
  match fields name with
  | none => some []
  | some v => v.items?.bind fun items => items.mapM Json.byte?

/-- New values for registers. -/
def patch (fields : Fields) : Option RegisterPatch := do
  let values ← Register.all.mapM fun r => fields.optional Json.word? r.name
  return .ofFn fun r => ((Register.all.zip values).lookup r).join

end Fields

/-- The event of a kind with given fields. -/
def ofFields? (kind : Kind) (fields : Fields) : Option Event :=
  match kind with
  | .instructionFetched => do
    return .instructionFetched (← fields.required Json.word? "cs")
      (← fields.required Json.word? "ip")
  | .interruptInvoked => do
    return .interruptInvoked (← fields.required Json.byte? "int_num")
  | .fileCreated => do
    return .fileCreated (← fields.required Json.string? "filename")
      (← fields.required Json.word? "attributes")
  | .fileOpened => do
    return .fileOpened (← fields.required Json.string? "filename")
      (← fields.required Json.byte? "mode")
  | .handleOpened => do
    return .handleOpened (← fields.required Json.word? "handle")
      (← fields.required Json.string? "filename")
  | .fileClosed => do
    return .fileClosed (← fields.required Json.word? "handle")
  | .readIssued => do
    return .readIssued (← fields.required Json.word? "handle")
      (← fields.required Json.word? "requested") (← fields.required Json.word? "segment")
      (← fields.required Json.word? "offset")
  | .readCompleted => do
    return .readCompleted (← fields.required Json.word? "handle")
      (← fields.required Json.word? "actual") (← fields.required Json.long? "buffer")
  | .programExec => do
    return .programExec (← fields.required Json.string? "filename")
      (← fields.optional Json.string? "cmdline")
  | .programTerminated => do
    return .programTerminated (← fields.required Json.byte? "exit_code")
  | .programStayedResident => do
    return .programStayedResident (← fields.required Json.byte? "exit_code")
  | .videoModeChanging => do
    return .videoModeChanging (← fields.required Json.word? "old_mode")
      (← fields.required Json.word? "new_mode")
  | .setRegisters => do
    return .setRegisters (← fields.patch)
  | .poke => do
    return .poke (← fields.required Json.long? "address") (← fields.bytes "bytes")
      (← fields.optional Json.string? "text")
  | .setBatch => do
    return .setBatch (← fields.required Json.bool? "running")

/-- No two members have one of the given names. -/
def noneRepeated (names : List String) (members : List (String × Json)) : Bool :=
  names.all fun name => (members.filter (·.1 == name)).length ≤ 1

/-- The event that an object or array is. -/
def ofJson? : Json → Option Event
  | .object members => do
    let kind ← Kind.ofName? (← (← members.lookup kindMember).string?)
    if noneRepeated (kindMember :: kind.fieldNames) members then
      ofFields? kind fun name => members.lookup name
    else none
  | .array (.string name :: items) => do
    let kind ← Kind.ofName? name
    if items.length ≤ kind.fieldNames.length then
      ofFields? kind fun name => (kind.fieldNames.zip items).lookup name
    else none
  | _ => none

/-- The event that a text is. -/
def parse? (s : String) : Option Event :=
  (Json.parse? s).bind ofJson?

/-- The patch that an object or array is. -/
def patchOfJson? : Json → Option RegisterPatch
  | .object members =>
    if noneRepeated (Register.all.map Register.name) members then
      Fields.patch fun name => members.lookup name
    else none
  | .array items =>
    if items.length ≤ Register.all.length then
      Fields.patch fun name => ((Register.all.map Register.name).zip items).lookup name
    else none
  | _ => none

end RealModeTrace.Event
