import RealModeTrace.Proofs.Session.Effects
import RealModeTrace.Proofs.Trace.ReadBack

/-!
# Lines of instructions

The line of an instruction shows where it is, the bytes there and the other registers, each in a
column of its own. All of it can be read back.

* `FlatMachine.opcodeAt`: the bytes of an instruction; `FlatMachine.opcode_host`: those that are
  traced;
* `FlatMachine.instructionLine`, `FlatMachine.instructionColumns`: the line of an instruction, and
  its columns; `FlatMachine.length_instructionColumns`: how wide they are;
* `FlatMachine.ShowsInstruction`: what the line shows; `FlatMachine.instruction_shown`: it is so in
  every state of the machine.
-/

namespace RealModeTrace

open Text

/-! ### The bytes of an instruction -/

/-- Twenty address lines: a segment and an offset never exceed the thirty-two bits of the sum. -/
theorem toNat_realModeAddress (segment offset : UInt16) :
    (realModeAddress segment offset).toNat =
      (16 * segment.toNat + offset.toNat) % cellCount := by
  have hsegment := segment.toNat_lt
  have hoffset := offset.toNat_lt
  rw [realModeAddress, UInt32.toNat_mod, UInt32.toNat_add, UInt32.toNat_mul,
    UInt16.toNat_toUInt32, UInt16.toNat_toUInt32]
  show (segment.toNat * 16 % 2 ^ 32 + offset.toNat) % 2 ^ 32 % cellCount = _
  rw [Nat.mod_eq_of_lt (b := 2 ^ 32) (by omega), Nat.mod_eq_of_lt (b := 2 ^ 32) (by omega),
    Nat.mul_comm]

namespace FlatMachine

variable (m : FlatMachine) (elapsed : UInt64) (cs ip : UInt16)

/-- The eight bytes from `cs:ip` on, in a memory that goes on at its beginning. -/
def opcodeAt : List UInt8 :=
  (List.range 8).map fun i =>
    m.cell ⟨(16 * cs.toNat + ip.toNat + i) % cellCount, Nat.mod_lt _ (by decide)⟩

theorem opcode_host : m.host.opcode cs ip = m.opcodeAt cs ip := by
  refine List.map_congr_left fun i hi => congrArg m.cell (Fin.ext ?_)
  have hlt : i < 8 := List.mem_range.1 hi
  have hbase : (realModeAddress cs ip).toNat < 0x100000 := by
    rw [toNat_realModeAddress]
    exact Nat.mod_lt _ (by decide)
  have hindex : i % 2 ^ 32 = i := Nat.mod_eq_of_lt (by omega)
  -- the sum of thirty-two bits does not wrap, so that the memory alone does
  show (realModeAddress cs ip + UInt32.ofNat i).toNat % cellCount =
    (16 * cs.toNat + ip.toNat + i) % cellCount
  rw [UInt32.toNat_add, UInt32.toNat_ofNat', hindex, Nat.mod_eq_of_lt (b := 2 ^ 32) (by omega),
    toNat_realModeAddress, Nat.mod_add_mod]

theorem length_opcodeAt : (m.opcodeAt cs ip).length = opcodeWindow := by
  rw [opcodeAt, List.length_map, List.length_range]
  rfl

end FlatMachine

/-! ### Widths -/

/-- The widths of the columns after the time: the place, the bytes, and a label and a word for each
of twelve registers. -/
def payloadWidths : List Nat :=
  [6, 4, 1, 4, 8, 23, 1] ++ (List.replicate 12 [1, 2, 1, 4]).flatten

theorem length_hexWord (w : UInt16) : (hexWord w).length = 4 :=
  String.length_ofList

theorem length_pieces_instruction (cs ip : UInt16) {opcode : List UInt8}
    (h : opcode.length = opcodeWindow) (r : Registers) :
    (Payload.instruction cs ip opcode r).pieces.map String.length = payloadWidths := by
  have hopcode : (hexColumn opcodeColumn opcode).length = 23 := by
    rw [hexColumn_opcode h, length_hexBytes, h]
    rfl
  simp only [Payload.pieces, instructionPieces, registerColumn, List.cons_append, List.nil_append,
    List.map_cons, List.map_nil, length_hexWord, hopcode]
  rfl

/-- Eight digits are enough for less than a hundred million milliseconds. -/
theorem length_stampPieces {elapsed : UInt64} (h : elapsed.toNat < 10 ^ 8) :
    (stampPieces elapsed).map String.length = [3, 8, 4] := by
  have hdigits : (decimalPad 8 elapsed.toNat).length = 8 := by
    rw [decimalPad, String.length_ofList, List.length_leftpad]
    exact Nat.max_eq_left (length_toDigits_le (by decide) h)
  simp only [stampPieces, List.map_cons, List.map_nil, hdigits]
  rfl

/-! ### Lines -/

namespace FlatMachine

/-- The line of an instruction. -/
def instructionLine (m : FlatMachine) (elapsed : UInt64) (cs ip : UInt16) : String :=
  (Record.timed elapsed (.instruction cs ip (m.host.opcode cs ip) m.host.registers)).text

variable (m : FlatMachine) (elapsed : UInt64) (cs ip : UInt16)

/-- The columns of the line: the time between its marks, and the labels with what they are for. -/
def instructionColumns : List String :=
  stampPieces elapsed ++ instructionPieces cs ip (m.opcodeAt cs ip) m.registers

/-- The line is never cut. -/
theorem instructionLine_eq : m.instructionLine elapsed cs ip =
    (Record.timed elapsed (.instruction cs ip (m.opcodeAt cs ip) m.registers)).full := by
  rw [instructionLine, opcode_host]
  exact Record.text_eq_full_of_names rfl (m.length_opcodeAt cs ip) nofun

/-- All columns are as wide in every line whose time has eight digits. -/
theorem length_instructionColumns (h : elapsed.toNat < 10 ^ 8) :
    (m.instructionColumns elapsed cs ip).map String.length = [3, 8, 4] ++ payloadWidths := by
  rw [instructionColumns, List.map_append, length_stampPieces h]
  exact congrArg _ (length_pieces_instruction cs ip (m.length_opcodeAt cs ip) m.registers)

theorem readTime?_instructionLine :
    readTime? (m.instructionLine elapsed cs ip) = some elapsed.toNat :=
  Record.readTime?_text _

theorem payloadOf_instructionLine : payloadOf (m.instructionLine elapsed cs ip) =
    (String.join (Payload.instruction cs ip (m.opcodeAt cs ip) m.registers).pieces).toList := by
  rw [instructionLine_eq]
  exact Record.payloadOf_full _

theorem readInstruction?_instructionLine :
    readInstruction? (payloadOf (m.instructionLine elapsed cs ip)) =
      some (m.opcodeAt cs ip, { m.registers with cs, ip }) := by
  rw [payloadOf_instructionLine]
  exact readInstruction?_instruction cs ip (m.length_opcodeAt cs ip) m.registers

/-- What the line of an instruction shows. -/
structure ShowsInstruction : Prop where
  /-- It is what a session writes of an instruction that it logs, at the time of the session. -/
  written : ∀ (s : Session) (clock : Readings), s.elapsed (clock.nth 0) = elapsed →
    (s.answer (clock, .event m.host (.instructionFetched cs ip))).map Record.text =
      if s.traces s.config.instructions && s.sampler.tick.2 then [m.instructionLine elapsed cs ip]
      else []
  time : readTime? (m.instructionLine elapsed cs ip) = some elapsed.toNat
  /-- The place of the instruction, the bytes there and the other registers. -/
  shown : readInstruction? (payloadOf (m.instructionLine elapsed cs ip)) =
    some (m.opcodeAt cs ip, { m.registers with cs, ip })
  /-- Lines that are equal agree on all of it. -/
  injective : ∀ (n : FlatMachine) time ds jp,
    m.instructionLine elapsed cs ip = n.instructionLine time ds jp →
    elapsed = time ∧ cs = ds ∧ ip = jp ∧ m.opcodeAt cs ip = n.opcodeAt ds jp ∧
      ∀ name, name ≠ .cs → name ≠ .ip → m.registers.get name = n.registers.get name
  length_payload : (payloadOf (m.instructionLine elapsed cs ip)).length = 143
  /-- The line is its columns in a row. Up to a time of eight digits, they are as wide in every
  line, and so is the line. -/
  columns : m.instructionLine elapsed cs ip = String.join (m.instructionColumns elapsed cs ip)
  aligned : elapsed.toNat < 10 ^ 8 →
    (m.instructionColumns elapsed cs ip).map String.length = [3, 8, 4] ++ payloadWidths ∧
      (m.instructionLine elapsed cs ip).length = 158

/-- **The line of an instruction** shows the time, the place, the eight bytes there and all other
registers, whatever they are and wherever the memory goes on at its beginning: all of it can be read
back, so that two instructions with the same line agree on it. The line after the time is always as
long, and up to a time of eight digits so are the line and each of its columns. -/
theorem instruction_shown : m.ShowsInstruction elapsed cs ip where
  written s clock helapsed := by
    have hanswer : s.answer (clock, .event m.host (.instructionFetched cs ip)) =
        if s.traces s.config.instructions && s.sampler.tick.2 then
          [s.stamp (clock.nth 0) (.instruction cs ip (m.host.opcode cs ip) m.host.registers)]
        else [] := s.observe_snd clock m.host (.instructionFetched cs ip)
    rw [hanswer, instructionLine, ← helapsed]
    split_ifs <;> rfl
  time := m.readTime?_instructionLine elapsed cs ip
  shown := m.readInstruction?_instructionLine elapsed cs ip
  injective n time ds jp h := by
    have htime := congrArg readTime? h
    have hshown := congrArg (fun line => readInstruction? (payloadOf line)) h
    simp only [readTime?_instructionLine, readInstruction?_instructionLine, Option.some.injEq,
      Prod.mk.injEq] at htime hshown
    obtain ⟨hopcode, hregisters⟩ := hshown
    have hget (name : Register) := congrArg (Registers.get · name) hregisters
    refine ⟨UInt64.toNat_inj.1 htime, hget .cs, hget .ip, hopcode, fun name hcs hip => ?_⟩
    have hname := hget name
    cases name with
    | cs => exact absurd rfl hcs
    | ip => exact absurd rfl hip
    | _ => exact hname
  length_payload := by
    rw [payloadOf_instructionLine, String.length_toList, String.length_join,
      length_pieces_instruction cs ip (m.length_opcodeAt cs ip)]
    rfl
  columns := m.instructionLine_eq elapsed cs ip
  aligned h := by
    have hwidths := m.length_instructionColumns elapsed cs ip h
    refine ⟨hwidths, ?_⟩
    rw [instructionLine_eq]
    show (String.join (m.instructionColumns elapsed cs ip)).length = 158
    rw [String.length_join, hwidths]
    rfl

end FlatMachine

end RealModeTrace
