/-!
# Interrupt services

What the software interrupts of the BIOS, of DOS and of the mouse driver do, by interrupt number and
function number, for the benefit of the reader of a trace.

* `Service`: an interrupt whose functions are told apart by AH or AL;
* `describe`: the text for a call; a service names its unknown functions by a text of its own, and
  an interrupt that is not in the catalog has the empty text.
-/

namespace RealModeTrace.Interrupts

/-- The register that holds the function number. -/
inductive Selector
  | ah
  | al
  deriving DecidableEq, Repr

/-- An interrupt with numbered functions. -/
structure Service where
  number : UInt8
  selector : Selector
  functions : List (UInt8 × String)
  /-- The text for a function that is not listed. -/
  other : String

/-- Functions of the video BIOS, by AH. -/
def videoFunctions : List (UInt8 × String) :=
  [(0x00, "Set Video Mode"),
    (0x01, "Set Text-Mode Cursor Shape"),
    (0x02, "Set Cursor Position"),
    (0x03, "Get Cursor Position/Shape"),
    (0x04, "Read Light Pen"),
    (0x05, "Set Display Page"),
    (0x06, "Scroll Window Up"),
    (0x07, "Scroll Window Down"),
    (0x08, "Read Char/Attribute at Cursor"),
    (0x09, "Write Char/Attribute at Cursor"),
    (0x0A, "Write Char at Cursor"),
    (0x0B, "Set Color Palette"),
    (0x0C, "Write Graphics Pixel"),
    (0x0D, "Read Graphics Pixel"),
    (0x0E, "Teletype Output"),
    (0x0F, "Get Current Video Mode"),
    (0x10, "Set/Get Palette Registers"),
    (0x11, "Character Generator Functions"),
    (0x12, "Video Subsystem Configuration"),
    (0x13, "Write String"),
    (0x1A, "Video Display Combination"),
    (0x1B, "Get Video State"),
    (0x1C, "Save/Restore Video State"),
    (0x4F, "VESA/VBE Functions")]

/-- Functions of the disk BIOS, by AH. -/
def diskFunctions : List (UInt8 × String) :=
  [(0x00, "Reset Disk"),
    (0x01, "Get Disk Status"),
    (0x02, "Read Sectors"),
    (0x03, "Write Sectors"),
    (0x04, "Verify Sectors"),
    (0x08, "Get Drive Parameters"),
    (0x0C, "Seek"),
    (0x15, "Get Drive Type"),
    (0x41, "Check Extensions Present"),
    (0x42, "Extended Read Sectors"),
    (0x43, "Extended Write Sectors")]

/-- Functions of the keyboard BIOS, by AH. -/
def keyboardFunctions : List (UInt8 × String) :=
  [(0x00, "Read Keystroke"),
    (0x01, "Check Keystroke Buffer"),
    (0x02, "Get Shift Flags"),
    (0x03, "Set Repeat Rate"),
    (0x10, "Read Extended Keystroke"),
    (0x11, "Check Extended Keystroke"),
    (0x12, "Get Extended Shift Flags")]

/-- Functions of DOS, by AH. -/
def dosFunctions : List (UInt8 × String) :=
  [(0x00, "Terminate Program"),
    (0x01, "Read Char (STDIN, echo)"),
    (0x02, "Write Char (STDOUT)"),
    (0x06, "Direct Console I/O"),
    (0x08, "Read Char (STDIN, no echo)"),
    (0x09, "Write String"),
    (0x0A, "Buffered Keyboard Input"),
    (0x0B, "Check Keyboard Status"),
    (0x0C, "Flush Buffer, Read Keyboard"),
    (0x0D, "Disk Reset"),
    (0x0E, "Select Drive"),
    (0x19, "Get Current Drive"),
    (0x1A, "Set DTA"),
    (0x25, "Set Interrupt Vector"),
    (0x26, "Create New PSP"),
    (0x2A, "Get Date"),
    (0x2B, "Set Date"),
    (0x2C, "Get Time"),
    (0x2D, "Set Time"),
    (0x2F, "Get DTA"),
    (0x30, "Get DOS Version"),
    (0x31, "Terminate and Stay Resident"),
    (0x33, "Extended Break Handling"),
    (0x35, "Get Interrupt Vector"),
    (0x36, "Get Free Disk Space"),
    (0x39, "Create Directory"),
    (0x3A, "Remove Directory"),
    (0x3B, "Change Directory"),
    (0x3C, "Create/Truncate File"),
    (0x3D, "Open File"),
    (0x3E, "Close File"),
    (0x3F, "Read File/Device"),
    (0x40, "Write File/Device"),
    (0x41, "Delete File"),
    (0x42, "Seek File"),
    (0x43, "Get/Set File Attributes"),
    (0x44, "IOCTL"),
    (0x45, "Duplicate File Handle"),
    (0x46, "Force Duplicate File Handle"),
    (0x47, "Get Current Directory"),
    (0x48, "Allocate Memory"),
    (0x49, "Free Memory"),
    (0x4A, "Resize Memory Block"),
    (0x4B, "EXEC Load/Execute Program"),
    (0x4C, "Terminate with Return Code"),
    (0x4D, "Get Return Code"),
    (0x4E, "Find First File"),
    (0x4F, "Find Next File"),
    (0x56, "Rename File"),
    (0x57, "Get/Set File Date&Time"),
    (0x59, "Get Extended Error"),
    (0x5A, "Create Temp File"),
    (0x5B, "Create New File"),
    (0x5C, "Lock/Unlock File Region"),
    (0x5E, "Network Functions"),
    (0x5F, "Redirection Functions"),
    (0x62, "Get Current PSP"),
    (0x6C, "Extended Open/Create")]

/-- Functions of the mouse driver, by AL. -/
def mouseFunctions : List (UInt8 × String) :=
  [(0x00, "Mouse Reset/Get Status"),
    (0x01, "Show Mouse Cursor"),
    (0x02, "Hide Mouse Cursor"),
    (0x03, "Get Mouse Position/Button"),
    (0x04, "Set Mouse Position"),
    (0x05, "Get Button Press Info"),
    (0x06, "Get Button Release Info"),
    (0x07, "Set X Range"),
    (0x08, "Set Y Range"),
    (0x0B, "Read Mouse Motion Counters"),
    (0x0C, "Set Interrupt Subroutine"),
    (0x0F, "Set Mickey/Pixel Ratio")]

/-- The services with numbered functions. -/
def services : List Service :=
  [⟨0x10, .ah, videoFunctions, "Video BIOS Function"⟩,
    ⟨0x13, .ah, diskFunctions, "Disk BIOS Function"⟩,
    ⟨0x16, .ah, keyboardFunctions, "Keyboard BIOS Function"⟩,
    ⟨0x21, .ah, dosFunctions, "DOS Function"⟩,
    ⟨0x33, .al, mouseFunctions, "Mouse Function"⟩]

/-- Interrupts that are described without a function number. -/
def plainInterrupts : List (UInt8 × String) :=
  [(0x08, "Timer IRQ"),
    (0x09, "Keyboard IRQ"),
    (0x1C, "Timer Tick"),
    (0x2F, "Multiplex Interrupt")]

/-- The text for a function of a service. -/
def Service.describe (service : Service) (ah al : UInt8) : String :=
  let function := match service.selector with
    | .ah => ah
    | .al => al
  (service.functions.lookup function).getD service.other

/-- The text for an interrupt call. -/
def describe (number ah al : UInt8) : String :=
  match services.find? (·.number == number) with
  | some service => service.describe ah al
  | none => (plainInterrupts.lookup number).getD ""

end RealModeTrace.Interrupts
