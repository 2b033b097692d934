import RealModeTrace.Machine.Registers
import Std.Data.HashMap

/-!
# The emulated machine

A trace reads the machine and the command shell through `Host`: the registers, one byte of physical
memory at a time, and whether a batch script is running. `FlatMachine` is a host of its own for
replay, with one mebibyte of memory, in which addresses wrap.

* `realModeAddress`: the physical address of `segment:offset`, wrapped to twenty bits;
* `Host.bytes`: consecutive bytes, the address wrapping at thirty-two bits;
* `FlatMachine.poke`: write bytes; of two writes to one cell the later counts.
-/

namespace RealModeTrace

/-- What the tracer can see of the machine at one moment. -/
structure Host where
  registers : Registers
  readByte : UInt32 → UInt8
  batchRunning : Bool

/-- The `count` bytes from an address on. -/
def Host.bytes (host : Host) (address : UInt32) (count : Nat) : List UInt8 :=
  (List.range count).map fun i => host.readByte (address + UInt32.ofNat i)

/-- The physical address of `segment:offset` with twenty address lines. -/
def realModeAddress (segment offset : UInt16) : UInt32 :=
  (segment.toUInt32 * 16 + offset.toUInt32) % 0x100000

/-- The number of cells of real-mode memory. -/
abbrev cellCount : Nat := 0x100000

/-- A cell of real-mode memory. -/
abbrev Cell := Fin cellCount

/-- The cell at a physical address. -/
def cellAt (address : UInt32) : Cell :=
  Fin.ofNat cellCount address.toNat

/-- A machine with settable registers; memory cells that were never written hold zero. -/
structure FlatMachine where
  registers : Registers := {}
  written : Std.HashMap Cell UInt8 := ∅
  batchRunning : Bool := false

namespace FlatMachine

/-- A machine with zeroed registers and memory. -/
def new : FlatMachine := {}

/-- The byte in a cell. -/
def cell (m : FlatMachine) (c : Cell) : UInt8 :=
  m.written.getD c 0

/-- The byte at a physical address. -/
def readByte (m : FlatMachine) (address : UInt32) : UInt8 :=
  m.cell (cellAt address)

/-- Write one byte. -/
def store (m : FlatMachine) (address : UInt32) (byte : UInt8) : FlatMachine :=
  { m with written := m.written.insert (cellAt address) byte }

/-- Write bytes from an address on. -/
def poke (m : FlatMachine) (address : UInt32) : List UInt8 → FlatMachine
  | [] => m
  | byte :: bytes => (m.store address byte).poke (address + 1) bytes

/-- The machine as the tracer sees it. -/
def host (m : FlatMachine) : Host :=
  ⟨m.registers, m.readByte, m.batchRunning⟩

/-- One line that shows the registers and the batch flag. -/
def debugText (m : FlatMachine) : String :=
  let shown := Register.all.map fun r => r.name ++ ": " ++ toString (m.registers.get r).toNat
  "FlatMachine \x7b registers: Registers \x7b " ++ ", ".intercalate shown ++
    " \x7d, batch_running: " ++ (if m.batchRunning then "true" else "false") ++ ", .. \x7d"

theorem cell_store (m : FlatMachine) (address : UInt32) (byte : UInt8) (c : Cell) :
    (m.store address byte).cell c = if cellAt address = c then byte else m.cell c := by
  simp [cell, store, Std.HashMap.getD_insert]

@[simp] theorem cell_new (c : Cell) : new.cell c = 0 := by
  simp [new, cell]

end FlatMachine

end RealModeTrace
