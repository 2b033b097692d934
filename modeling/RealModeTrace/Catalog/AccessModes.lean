/-!
# Access modes

The low two bits of the mode with which a file is opened say what it is opened for.
-/

namespace RealModeTrace.AccessModes

/-- The name of the access that an open mode asks for. -/
def describe (mode : UInt8) : String :=
  match (mode &&& 3).toNat with
  | 0 => "read-only"
  | 1 => "write-only"
  | 2 => "read-write"
  | _ => "unknown"

end RealModeTrace.AccessModes
