import RealModeTrace.Event.Basic
import Mathlib.Data.List.Induction

/-!
# The memory of a replay

The machine of a replay has one mebibyte of memory, in which addresses wrap. What is read at an
address is what was written last to any address of the same cell, in whatever way the machine was
changed in between.

* `Memory`: all bytes of a memory, with `Memory.read` and `Memory.write`;
* `latest?`: the byte most recently written to an address; `Memory.read_writeAll`: it is read there;
* `FlatMachine.memory`: the memory of a machine; `FlatMachine.memory_poke`: bytes are written one by
  one from an address on;
* `Change`, `Change.writes`: a change of a machine, and what it writes; `FlatMachine.memory_apply`:
  it writes just that;
* `FlatMachine.KeepsMemory`: what holds of a machine after changes; `FlatMachine.memory_kept`: it
  does after all changes of a new one.
-/

namespace RealModeTrace

/-! ### Memory -/

/-- The bytes of all cells in order. -/
abbrev Memory := Vector UInt8 cellCount

/-- A byte and the physical address that it is written to. -/
structure ByteWrite where
  address : Nat
  byte : UInt8
  deriving DecidableEq, Repr

/-- The address of a cell that an address falls on. -/
theorem mod_cellCount_lt (address : Nat) : address % cellCount < cellCount :=
  Nat.mod_lt address (by decide)

namespace Memory

/-- The byte at an address. -/
def read (memory : Memory) (address : Nat) : UInt8 :=
  memory.get ⟨address % cellCount, mod_cellCount_lt address⟩

/-- Write one byte. -/
def write (memory : Memory) (w : ByteWrite) : Memory :=
  memory.set (w.address % cellCount) w.byte (mod_cellCount_lt w.address)

/-- Write bytes in order. -/
def writeAll (memory : Memory) (writes : List ByteWrite) : Memory :=
  writes.foldl write memory

theorem read_ofFn (f : Fin cellCount → UInt8) (address : Nat) :
    read (Vector.ofFn f) address = f ⟨address % cellCount, mod_cellCount_lt address⟩ :=
  Vector.getElem_ofFn ..

theorem read_replicate (byte : UInt8) (address : Nat) :
    read (Vector.replicate cellCount byte) address = byte :=
  Vector.getElem_replicate ..

theorem writeAll_cons (memory : Memory) (w : ByteWrite) (writes : List ByteWrite) :
    writeAll memory (w :: writes) = writeAll (write memory w) writes := rfl

theorem writeAll_append (memory : Memory) (writes more : List ByteWrite) :
    writeAll memory (writes ++ more) = writeAll (writeAll memory writes) more :=
  List.foldl_append

theorem read_write (memory : Memory) (w : ByteWrite) (address : Nat) :
    read (write memory w) address =
      if w.address % cellCount = address % cellCount then w.byte else read memory address :=
  Vector.getElem_set ..

end Memory

/-- The byte most recently written to an address: the last of the writes to its cell. -/
def latest? (writes : List ByteWrite) (address : Nat) : Option UInt8 :=
  (writes.reverse.find? fun w => w.address % cellCount = address % cellCount).map ByteWrite.byte

theorem latest?_concat (writes : List ByteWrite) (w : ByteWrite) (address : Nat) :
    latest? (writes ++ [w]) address =
      if w.address % cellCount = address % cellCount then some w.byte
      else latest? writes address := by
  unfold latest?
  rw [List.reverse_concat, List.find?_cons]
  by_cases h : w.address % cellCount = address % cellCount <;> simp [h]

/-- What is read is what was written last, or what was there before. -/
theorem Memory.read_writeAll (memory : Memory) (writes : List ByteWrite) (address : Nat) :
    read (writeAll memory writes) address =
      (latest? writes address).getD (read memory address) := by
  induction writes using List.reverseRecOn with
  | nil => rfl
  | append_singleton writes w ih =>
    rw [writeAll_append, latest?_concat]
    show read (write (writeAll memory writes) w) address = _
    rw [read_write, ih]
    split_ifs <;> rfl

/-! ### Bytes from an address on -/

/-- The writes of bytes from an address on. Addresses wrap at thirty-two bits. -/
def writesFrom (address : UInt32) (bytes : List UInt8) : List ByteWrite :=
  bytes.mapIdx fun i byte => ⟨(address.toNat + i) % UInt32.size, byte⟩

theorem writesFrom_cons (address : UInt32) (byte : UInt8) (bytes : List UInt8) :
    writesFrom address (byte :: bytes) =
      ⟨address.toNat, byte⟩ :: writesFrom (address + 1) bytes := by
  have hnext (i : Nat) : (address.toNat + (i + 1)) % UInt32.size =
      ((address + 1).toNat + i) % UInt32.size := by
    rw [UInt32.toNat_add, Nat.mod_add_mod, Nat.add_assoc, Nat.add_comm i 1]
    rfl
  rw [writesFrom, List.mapIdx_cons, Nat.add_zero, Nat.mod_eq_of_lt address.toNat_lt]
  simp only [hnext]
  rfl

namespace FlatMachine

/-- The memory of a machine. -/
def memory (m : FlatMachine) : Memory :=
  Vector.ofFn m.cell

theorem readByte_eq (m : FlatMachine) (address : UInt32) :
    m.readByte address = m.memory.read address.toNat := by
  rw [memory, Memory.read_ofFn]
  rfl

theorem memory_new : new.memory = Vector.replicate cellCount 0 := by
  refine Vector.ext fun i hi => ?_
  rw [memory, Vector.getElem_ofFn, cell_new, Vector.getElem_replicate]

theorem memory_store (m : FlatMachine) (address : UInt32) (byte : UInt8) :
    (m.store address byte).memory = m.memory.write ⟨address.toNat, byte⟩ := by
  refine Vector.ext fun i hi => ?_
  rw [memory, Memory.write, Vector.getElem_ofFn, cell_store, Vector.getElem_set, memory,
    Vector.getElem_ofFn]
  exact if_congr Fin.ext_iff rfl rfl

/-- Bytes are written one by one from an address on. -/
theorem memory_poke (m : FlatMachine) (address : UInt32) (bytes : List UInt8) :
    (m.poke address bytes).memory = m.memory.writeAll (writesFrom address bytes) := by
  induction bytes generalizing m address with
  | nil => rfl
  | cons byte bytes ih =>
    rw [poke, ih, memory_store, writesFrom_cons, Memory.writeAll_cons]

/-- Bytes may be written in two pieces, of any lengths, the second from where the first ends. -/
theorem poke_append (m : FlatMachine) (address : UInt32) (bytes more : List UInt8) :
    m.poke address (bytes ++ more) =
      (m.poke address bytes).poke (address + .ofNat bytes.length) more := by
  induction bytes generalizing m address with
  | nil => exact congrArg (m.poke · more) address.add_zero.symm
  | cons byte bytes ih =>
    have hend : address + 1 + UInt32.ofNat bytes.length =
        address + UInt32.ofNat (byte :: bytes).length := by
      rw [List.length_cons, UInt32.ofNat_add, UInt32.add_assoc, UInt32.add_comm 1]
      rfl
    rw [List.cons_append, poke, poke, ih, hend]

/-- Writing bytes changes nothing but the memory. -/
theorem poke_frame (m : FlatMachine) (address : UInt32) (bytes : List UInt8) :
    (m.poke address bytes).registers = m.registers ∧
      (m.poke address bytes).batchRunning = m.batchRunning := by
  induction bytes generalizing m address with
  | nil => exact ⟨rfl, rfl⟩
  | cons byte bytes ih => exact ih (m.store address byte) (address + 1)

end FlatMachine

/-! ### Registers -/

theorem RegisterPatch.get_foldl_set (p : RegisterPatch) (names : List Register) (r : Registers)
    (name : Register) :
    (names.foldl (fun r name => (p.get name).elim r (r.set name)) r).get name =
      if name ∈ names then (p.get name).getD (r.get name) else r.get name := by
  induction names generalizing r with
  | nil => rfl
  | cons other names ih =>
    have hset : ((p.get other).elim r (r.set other)).get name =
        if name = other then (p.get name).getD (r.get name) else r.get name := by
      by_cases h : name = other
      · subst h
        rcases p.get name with _ | value <;> simp [Registers.get_set]
      · rcases p.get other with _ | value <;> simp [Registers.get_set, h]
    rw [List.foldl_cons, ih, hset]
    by_cases h : name = other
    · subst h
      rcases p.get name with _ | value <;> simp
    · simp [h]

/-- A patch sets the registers that it gives, and keeps the others. -/
theorem RegisterPatch.get_apply (p : RegisterPatch) (r : Registers) (name : Register) :
    (p.apply r).get name = (p.get name).getD (r.get name) := by
  have hall : name ∈ Register.all := by cases name <;> decide
  exact (p.get_foldl_set Register.all r name).trans (if_pos hall)

/-! ### Changes of a machine -/

/-- The bytes of a text, if there is one. -/
def textBytes (text : Option String) : List UInt8 :=
  text.elim [] fun s => (Text.utf8 s).toList

/-- An event that writes bytes and a text writes them in one piece. -/
theorem Event.applyTo_poke (address : UInt32) (bytes : List UInt8) (text : Option String)
    (m : FlatMachine) : (Event.poke address bytes text).applyTo m =
      some (m.poke address (bytes ++ textBytes text)) := by
  rcases text with _ | s
  · exact congrArg (fun bytes => some (m.poke address bytes)) bytes.append_nil.symm
  · exact congrArg some (m.poke_append address bytes _).symm

namespace FlatMachine

/-- A change of a machine: bytes are written, or an event is applied. -/
inductive Change
  | poke (address : UInt32) (bytes : List UInt8)
  | event (event : Event)

/-- What a change writes to memory. -/
def Change.writes : Change → List ByteWrite
  | .poke address bytes => writesFrom address bytes
  | .event (.poke address bytes text) => writesFrom address (bytes ++ textBytes text)
  | .event _ => []

/-- The machine after a change. Events of the tracer leave it alone. -/
def apply (m : FlatMachine) : Change → FlatMachine
  | .poke address bytes => m.poke address bytes
  | .event event => (event.applyTo m).getD m

/-- A new machine after changes. -/
def after (changes : List Change) : FlatMachine :=
  changes.foldl apply new

/-- The writes of changes, in order. -/
def writesOf (changes : List Change) : List ByteWrite :=
  changes.flatMap Change.writes

/-- A change writes what it is to write, and nothing else. -/
theorem memory_apply (m : FlatMachine) (change : Change) :
    (m.apply change).memory = m.memory.writeAll change.writes := by
  cases change with
  | poke address bytes => exact m.memory_poke address bytes
  | event event =>
    cases event with
    | poke address bytes text =>
      rw [apply, Event.applyTo_poke, Option.getD_some, memory_poke, Change.writes]
    | _ => rfl

/-- After changes a new machine holds their writes. -/
theorem memory_after (changes : List Change) :
    (after changes).memory = Memory.writeAll (.replicate cellCount 0) (writesOf changes) := by
  induction changes using List.reverseRecOn with
  | nil => exact memory_new
  | append_singleton changes change ih =>
    have hafter : after (changes ++ [change]) = (after changes).apply change := by
      rw [after, List.foldl_append]
      rfl
    have hwrites : writesOf (changes ++ [change]) = writesOf changes ++ change.writes := by
      rw [writesOf, List.flatMap_append, List.flatMap_singleton]
      rfl
    rw [hafter, memory_apply, ih, hwrites, Memory.writeAll_append]

/-- What holds of a machine after changes of a new one. -/
structure KeepsMemory (changes : List Change) : Prop where
  /-- What is read at an address is the byte most recently written to one that is the same modulo
  2^20, and zero if there is none. -/
  read : ∀ address : UInt32, (after changes).readByte address =
    (latest? (writesOf changes) address.toNat).getD 0
  /-- The memory is a row of 2^20 bytes: zeros, in which each write and each read has its place. -/
  row : (after changes).memory = Memory.writeAll (.replicate 0x100000 0) (writesOf changes)
  size : (after changes).memory.toList.length = 0x100000
  inRange : ∀ address : UInt32, (after changes).memory.toList[address.toNat % 0x100000]? =
    some ((after changes).readByte address)
  /-- Bytes may be written in two pieces. -/
  append : ∀ address bytes more, (after changes).poke address (bytes ++ more) =
    ((after changes).poke address bytes).poke (address + .ofNat bytes.length) more
  /-- An event that writes bytes and a text writes the bytes and, right behind them, the text. -/
  poke_event : ∀ address bytes text, (Event.poke address bytes text).applyTo (after changes) =
    some ((after changes).poke address (bytes ++ textBytes text))
  /-- Writing bytes leaves the registers and the shell alone. -/
  poke_frame : ∀ address bytes,
    ((after changes).poke address bytes).registers = (after changes).registers ∧
      ((after changes).poke address bytes).batchRunning = (after changes).batchRunning
  /-- An event that sets registers sets those that its patch gives, and changes nothing else. -/
  setRegisters : ∀ patch, ∃ registers,
    (Event.setRegisters patch).applyTo (after changes) = some { after changes with registers } ∧
      ∀ name, registers.get name =
        (patch.get name).getD ((after changes).registers.get name)
  /-- An event that starts or ends a batch script changes nothing else. -/
  setBatch : ∀ running, (Event.setBatch running).applyTo (after changes) =
    some { after changes with batchRunning := running }

/-- **Memory keeps what was written last.** However a new machine was changed, by bytes written from
any addresses on, in pieces of any lengths, and by any events, each address reads as the byte most
recently written to its cell, or zero; the memory has 2^20 bytes, and no address is out of range. A
written text follows the bytes before it, and an event for registers or for batch scripts leaves
memory alone. -/
theorem memory_kept (changes : List Change) : KeepsMemory changes where
  read address := by
    rw [readByte_eq, memory_after, Memory.read_writeAll, Memory.read_replicate]
  row := memory_after changes
  size := (after changes).memory.length_toList
  inRange address := by
    rw [readByte_eq, Vector.getElem?_toList]
    exact Vector.getElem?_eq_getElem (mod_cellCount_lt address.toNat)
  append := (after changes).poke_append
  poke_event address bytes text := Event.applyTo_poke address bytes text _
  poke_frame := (after changes).poke_frame
  setRegisters patch :=
    ⟨patch.apply (after changes).registers, rfl, patch.get_apply (after changes).registers⟩
  setBatch _ := rfl

/-- Three bytes from the last address on: the second is at the first address, and all are seen from
addresses beyond memory too. -/
example : [0xFFFFF, 0x100000, 0x2FFFFF].map (latest? (writesFrom 0xFFFFFFFF [1, 2, 3])) =
    [some 1, some 2, some 1] := by
  decide

end FlatMachine

end RealModeTrace
