/-!
# Video modes

* `VideoModes.base`: a mode number without the bit that keeps the screen uncleared, which is bit 7
  of a mode up to FFh and bit 15 of a larger one;
* `VideoModes.describe`: the text for a mode without that bit;
* `VideoModes.describeValue`: the text for a mode as it is passed to the BIOS.
-/

namespace RealModeTrace.VideoModes

/-- The modes of the BIOS and of VESA. -/
def modes : List (UInt16 × String) :=
  [(0x00, "40x25 16-color text (B&W)"),
    (0x01, "40x25 16-color text"),
    (0x02, "80x25 16-color text (B&W)"),
    (0x03, "80x25 16-color text"),
    (0x04, "320x200 4-color CGA"),
    (0x05, "320x200 4-color CGA (B&W)"),
    (0x06, "640x200 2-color CGA"),
    (0x07, "80x25 monochrome text (MDA/Hercules)"),
    (0x0D, "320x200 16-color EGA"),
    (0x0E, "640x200 16-color EGA"),
    (0x0F, "640x350 monochrome EGA"),
    (0x10, "640x350 16-color EGA"),
    (0x11, "640x480 2-color VGA"),
    (0x12, "640x480 16-color VGA"),
    (0x13, "320x200 256-color VGA"),
    (0x100, "640x400 256-color VESA"),
    (0x101, "640x480 256-color VESA"),
    (0x102, "800x600 16-color VESA"),
    (0x103, "800x600 256-color VESA"),
    (0x104, "1024x768 16-color VESA"),
    (0x105, "1024x768 256-color VESA"),
    (0x106, "1280x1024 16-color VESA"),
    (0x107, "1280x1024 256-color VESA"),
    (0x10D, "320x200 32K-color VESA"),
    (0x10E, "320x200 64K-color VESA"),
    (0x10F, "320x200 16M-color VESA"),
    (0x110, "640x480 32K-color VESA"),
    (0x111, "640x480 64K-color VESA"),
    (0x112, "640x480 16M-color VESA"),
    (0x113, "800x600 32K-color VESA"),
    (0x114, "800x600 64K-color VESA"),
    (0x115, "800x600 16M-color VESA"),
    (0x116, "1024x768 32K-color VESA"),
    (0x117, "1024x768 64K-color VESA"),
    (0x118, "1024x768 16M-color VESA")]

/-- The mode without its no-clear bit. -/
def base (mode : UInt16) : UInt16 :=
  if mode ≤ 0xFF then mode &&& 0xFF7F else mode &&& 0x7FFF

/-- The text for a mode without its no-clear bit. -/
def describe (mode : UInt16) : String :=
  (modes.lookup mode).getD "unknown mode"

/-- The text for a mode, no-clear bit or not. -/
def describeValue (mode : UInt16) : String :=
  describe (base mode)

end RealModeTrace.VideoModes
