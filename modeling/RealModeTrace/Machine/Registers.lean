/-!
# Registers

The sixteen-bit register file, the names of its fourteen registers, and patches that set some of
them.

* `Register`, `Register.all`, `Register.name`;
* `Registers.get`, `Registers.set`: one register by name;
* `RegisterPatch`: a value or nothing for every register; `RegisterPatch.apply` sets the given ones.
-/

namespace RealModeTrace

/-- A register, in the order in which register files are listed. -/
inductive Register
  | ax | bx | cx | dx | si | di | bp | sp | cs | ds | es | ss | ip | flags
  deriving DecidableEq, Repr

/-- All registers in order. -/
def Register.all : List Register :=
  [.ax, .bx, .cx, .dx, .si, .di, .bp, .sp, .cs, .ds, .es, .ss, .ip, .flags]

/-- The name of a register. -/
def Register.name : Register → String
  | .ax => "ax"
  | .bx => "bx"
  | .cx => "cx"
  | .dx => "dx"
  | .si => "si"
  | .di => "di"
  | .bp => "bp"
  | .sp => "sp"
  | .cs => "cs"
  | .ds => "ds"
  | .es => "es"
  | .ss => "ss"
  | .ip => "ip"
  | .flags => "flags"

/-- The register file at the time of an event. -/
structure Registers where
  ax : UInt16 := 0
  bx : UInt16 := 0
  cx : UInt16 := 0
  dx : UInt16 := 0
  si : UInt16 := 0
  di : UInt16 := 0
  bp : UInt16 := 0
  sp : UInt16 := 0
  cs : UInt16 := 0
  ds : UInt16 := 0
  es : UInt16 := 0
  ss : UInt16 := 0
  ip : UInt16 := 0
  flags : UInt16 := 0
  deriving DecidableEq, Repr, Inhabited

namespace Registers

/-- The value of one register. -/
def get (r : Registers) : Register → UInt16
  | .ax => r.ax
  | .bx => r.bx
  | .cx => r.cx
  | .dx => r.dx
  | .si => r.si
  | .di => r.di
  | .bp => r.bp
  | .sp => r.sp
  | .cs => r.cs
  | .ds => r.ds
  | .es => r.es
  | .ss => r.ss
  | .ip => r.ip
  | .flags => r.flags

/-- The register file with one register replaced. -/
def set (r : Registers) (name : Register) (value : UInt16) : Registers :=
  match name with
  | .ax => { r with ax := value }
  | .bx => { r with bx := value }
  | .cx => { r with cx := value }
  | .dx => { r with dx := value }
  | .si => { r with si := value }
  | .di => { r with di := value }
  | .bp => { r with bp := value }
  | .sp => { r with sp := value }
  | .cs => { r with cs := value }
  | .ds => { r with ds := value }
  | .es => { r with es := value }
  | .ss => { r with ss := value }
  | .ip => { r with ip := value }
  | .flags => { r with flags := value }

/-- The high byte of AX. -/
def ah (r : Registers) : UInt8 :=
  (r.ax >>> 8).toUInt8

/-- The low byte of AX. -/
def al (r : Registers) : UInt8 :=
  r.ax.toUInt8

theorem get_set (r : Registers) (a b : Register) (value : UInt16) :
    (r.set a value).get b = if b = a then value else r.get b := by
  cases a <;> cases b <;> rfl

end Registers

/-- New values for some registers. -/
structure RegisterPatch where
  ax : Option UInt16 := none
  bx : Option UInt16 := none
  cx : Option UInt16 := none
  dx : Option UInt16 := none
  si : Option UInt16 := none
  di : Option UInt16 := none
  bp : Option UInt16 := none
  sp : Option UInt16 := none
  cs : Option UInt16 := none
  ds : Option UInt16 := none
  es : Option UInt16 := none
  ss : Option UInt16 := none
  ip : Option UInt16 := none
  flags : Option UInt16 := none
  deriving DecidableEq, Repr, Inhabited

namespace RegisterPatch

/-- What the patch gives for one register. -/
def get (p : RegisterPatch) : Register → Option UInt16
  | .ax => p.ax
  | .bx => p.bx
  | .cx => p.cx
  | .dx => p.dx
  | .si => p.si
  | .di => p.di
  | .bp => p.bp
  | .sp => p.sp
  | .cs => p.cs
  | .ds => p.ds
  | .es => p.es
  | .ss => p.ss
  | .ip => p.ip
  | .flags => p.flags

/-- The patch that gives `f r` for each register `r`. -/
def ofFn (f : Register → Option UInt16) : RegisterPatch where
  ax := f .ax
  bx := f .bx
  cx := f .cx
  dx := f .dx
  si := f .si
  di := f .di
  bp := f .bp
  sp := f .sp
  cs := f .cs
  ds := f .ds
  es := f .es
  ss := f .ss
  ip := f .ip
  flags := f .flags

/-- Set the registers that the patch gives and keep the others. -/
def apply (p : RegisterPatch) (r : Registers) : Registers :=
  Register.all.foldl (fun r name => (p.get name).elim r (r.set name)) r

@[simp] theorem ofFn_get (p : RegisterPatch) : ofFn p.get = p := rfl

@[simp] theorem get_ofFn (f : Register → Option UInt16) (name : Register) :
    (ofFn f).get name = f name := by
  cases name <;> rfl

end RegisterPatch

end RealModeTrace
