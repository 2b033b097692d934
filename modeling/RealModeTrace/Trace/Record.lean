import RealModeTrace.Catalog.AccessModes
import RealModeTrace.Catalog.Interrupts
import RealModeTrace.Catalog.VideoModes
import RealModeTrace.Handles
import RealModeTrace.HexBytes
import RealModeTrace.LineBuffer
import RealModeTrace.Machine.Flat
import RealModeTrace.Storage.Sink

/-!
# Trace records

A record is what one trace line says, before it is cut to the capacity of a line. Most lines carry
the time since the epoch; the banners of the trace itself do not.

* `Payload`: what was observed; `Payload.pieces` renders it piece by piece;
* `Banner`: what the trace says about itself;
* `Record.full`: the whole line; `Record.text`: the line as it is written.
-/

namespace RealModeTrace

/-- The number of opcode bytes shown for an instruction. -/
def opcodeWindow : Nat := 8

/-- The width of the column of opcode bytes. -/
def opcodeColumn : Nat := opcodeWindow * 3 - 1

/-- The opcode bytes at `cs:ip`. -/
def Host.opcode (host : Host) (cs ip : UInt16) : List UInt8 :=
  host.bytes (realModeAddress cs ip) opcodeWindow

/-- What was observed. -/
inductive Payload
  | instruction (cs ip : UInt16) (opcode : List UInt8) (registers : Registers)
  | interrupt (number : UInt8) (registers : Registers)
  | fileCreate (name : String) (attributes : UInt16)
  | fileOpen (name : String) (mode : UInt8)
  | fileClose (name : String) (handle : UInt16)
  | fileRead (name : String) (request : ReadRequest)
  | fileReadResult (name : String) (handle actual : UInt16)
  | fileData (bytes : List UInt8)
  | exec (filename cmdline : String) (psp : UInt16)
  | activated
  | terminated (exitCode : UInt8) (remaining : Int)
  | stayedResident (exitCode : UInt8) (depth : Int)
  | videoMode (oldMode newMode : UInt16)
  deriving DecidableEq, Repr

/-- What the trace says about itself. -/
inductive Banner
  /-- The log file could not be opened, and the console is used instead. -/
  | fallback (error : OpenError)
  | started
  | deactivated
  | ended
  deriving DecidableEq, Repr

/-- What one trace line says. -/
inductive Record
  | timed (elapsed : UInt64) (payload : Payload)
  | banner (banner : Banner)
  deriving DecidableEq, Repr

/-! ### Rendering -/

/-- A register column: its label and four digits. -/
def registerColumn (label : String) (value : UInt16) : List String :=
  [" ", label, "=", Text.hexWord value]

/-- The mark before the milliseconds, the milliseconds in eight digits at least, and the mark after
them. -/
def stampPieces (elapsed : UInt64) : List String :=
  ["[T+", Text.decimalPad 8 elapsed.toNat, "ms] "]

/-- The pieces of an instruction line. -/
def instructionPieces (cs ip : UInt16) (opcode : List UInt8) (r : Registers) : List String :=
  ["CS:IP=", Text.hexWord cs, ":", Text.hexWord ip, "  BYTES=", hexColumn opcodeColumn opcode, " "]
    ++ registerColumn "AX" r.ax ++ registerColumn "BX" r.bx ++ registerColumn "CX" r.cx
    ++ registerColumn "DX" r.dx ++ registerColumn "SI" r.si ++ registerColumn "DI" r.di
    ++ registerColumn "BP" r.bp ++ registerColumn "SP" r.sp ++ registerColumn "DS" r.ds
    ++ registerColumn "ES" r.es ++ registerColumn "SS" r.ss ++ registerColumn "FL" r.flags

/-- The description of an interrupt call in parentheses, if there is one. -/
def descriptionPieces (description : String) : List String :=
  if description = "" then [] else [" (", description, ")"]

/-- The pieces of an interrupt line. -/
def interruptPieces (number : UInt8) (r : Registers) : List String :=
  [">> INT ", Text.hexByte number, "h AH=", Text.hexByte r.ah, "h AL=", Text.hexByte r.al, "h"]
    ++ descriptionPieces (Interrupts.describe number r.ah r.al) ++ [" "]
    ++ registerColumn "AX" r.ax ++ registerColumn "BX" r.bx ++ registerColumn "CX" r.cx
    ++ registerColumn "DX" r.dx ++ registerColumn "SI" r.si ++ registerColumn "DI" r.di
    ++ registerColumn "DS" r.ds ++ registerColumn "ES" r.es

/-- A word in base ten. -/
def decimalWord (w : UInt16) : String :=
  Text.decimal w.toNat

namespace Payload

/-- The capacity of the line. -/
def capacity : Payload → Nat
  | .fileData _ => dataLineCapacity
  | _ => lineCapacity

/-- The pieces of the line after the time. -/
def pieces : Payload → List String
  | .instruction cs ip opcode registers => instructionPieces cs ip opcode registers
  | .interrupt number registers => interruptPieces number registers
  | .fileCreate name attributes =>
    ["FILE CREATE: \"", name, "\" attributes=0x", Text.hexWord attributes]
  | .fileOpen name mode =>
    ["FILE OPEN: \"", name, "\" mode=", AccessModes.describe mode, " (AL=0x", Text.hexByte mode,
      ")"]
  | .fileClose name handle => ["FILE CLOSE: \"", name, "\" (handle=", decimalWord handle, ")"]
  | .fileRead name request =>
    ["FILE READ: \"", name, "\" (handle=", decimalWord request.handle, ") requested=",
      decimalWord request.requested, " buffer=", Text.hexWord request.segment, ":",
      Text.hexWord request.offset]
  | .fileReadResult name handle actual =>
    ["FILE READ RESULT: \"", name, "\" (handle=", decimalWord handle, ") actual=",
      decimalWord actual]
  | .fileData bytes =>
    ["FILE DATA [first ", Text.decimal bytes.length, " bytes]: "] ++ hexPieces bytes
  | .exec filename cmdline psp =>
    ["=== PROGRAM EXEC: \"", filename, "\" args=\"", cmdline, "\" PSP=", Text.hexWord psp, " ==="]
  | .activated => ["=== FULL TRACE LOGGING ACTIVATED ==="]
  | .terminated exitCode remaining =>
    ["=== PROGRAM TERMINATED (exit code ", Text.decimal exitCode.toNat, ", remaining depth ",
      Text.signed remaining, ") ==="]
  | .stayedResident exitCode depth =>
    ["=== PROGRAM STAYED RESIDENT (exit code ", Text.decimal exitCode.toNat, ", depth ",
      Text.signed depth, ") ==="]
  | .videoMode oldMode newMode =>
    ["VIDEO MODE SWITCH: ", Text.hexShort oldMode, "h (", VideoModes.describeValue oldMode,
      ") -> ", Text.hexShort newMode, "h (", VideoModes.describeValue newMode, ")"]

end Payload

/-- The mark before a banner. -/
def bannerTag : String := "[debugtrace]"

/-- The text of a banner after its mark. -/
def Banner.text : Banner → String
  | .fallback error => "WARNING: " ++ error.message ++ ", falling back to stdout"
  | .started => "=== TRACE LOGGING STARTED ==="
  | .deactivated => "=== TRACE LOGGING DEACTIVATED (program exited) ==="
  | .ended => "=== TRACE LOGGING ENDED ==="

namespace Record

/-- The capacity of the line. -/
def capacity : Record → Nat
  | .timed _ payload => payload.capacity
  | .banner _ => lineCapacity

/-- The pieces of the line. -/
def pieces : Record → List String
  | .timed elapsed payload => stampPieces elapsed ++ payload.pieces
  | .banner b => [bannerTag, " ", b.text]

/-- The whole line. -/
def full (r : Record) : String :=
  String.join r.pieces

/-- The line as it is written. -/
def text (r : Record) : String :=
  (LineBuffer.render default r.capacity r.pieces).text

end Record

end RealModeTrace
