import RealModeTrace.Proofs.Text.Plain
import RealModeTrace.Proofs.Trace.LineBuffer
import RealModeTrace.Trace.FileLog

/-!
# Widths of lines

What a line takes from outside are names of files, command lines and the path of the log. All else
is plain and of bounded size, so that a line without such names is never cut.

* `Payload.names`, `Record.names`: the texts from outside in a line;
* `plain_stamp`: the time and its marks have at most twenty-seven bytes, up to the greatest word;
* `Payload.Windowed`: as many bytes of memory as a line shows;
* `Payload.plain_pieces`: a payload without names is plain and leaves room for the stamp;
* `Record.text_eq_full_of_names`: its line is written whole.
-/

namespace RealModeTrace

open Text

/-! ### Texts from outside -/

/-- The texts from outside in a payload. -/
def Payload.names : Payload → List String
  | .fileCreate name _ | .fileOpen name _ | .fileClose name _ | .fileRead name _
  | .fileReadResult name _ _ => [name]
  | .exec filename cmdline _ => [filename, cmdline]
  | .instruction .. | .interrupt .. | .fileData _ | .activated | .terminated _ _
  | .stayedResident _ _ | .videoMode _ _ => []

/-- The texts from outside in a line. -/
def Record.names : Record → List String
  | .timed _ payload => payload.names
  | .banner (.fallback error) => [error.path]
  | .banner _ => []

/-- The depth that a payload shows. -/
def Payload.depth? : Payload → Option Int
  | .terminated _ depth | .stayedResident _ depth => some depth
  | _ => none

/-- As many bytes of memory as a line shows: eight of an instruction, and of a read at most as many
as the greatest dump has. -/
def Payload.Windowed : Payload → Prop
  | .instruction _ _ opcode _ => opcode.length = opcodeWindow
  | .fileData bytes => bytes.length ≤ dumpCeiling.toNat
  | _ => True

/-! ### Catalogs -/

/-- A text from a table of plain texts. -/
theorem plain_lookup {α : Type} [BEq α] [LawfulBEq α] {n : Nat} {table : List (α × String)}
    {other : String} (htable : ∀ entry ∈ table, isPlain n entry.2 = true)
    (hother : isPlain n other = true) (a : α) : Plain n ((table.lookup a).getD other) := by
  rcases h : table.lookup a with _ | s
  · exact plain_of_isPlain hother
  · obtain ⟨before, after, rfl, -⟩ := List.lookup_eq_some_iff.1 h
    exact plain_of_isPlain (htable (a, s) (by simp))

theorem plain_services : ∀ service ∈ Interrupts.services, isPlain 30 service.other = true ∧
    ∀ entry ∈ service.functions, isPlain 30 entry.2 = true := by
  decide +kernel

theorem plain_plainInterrupts : ∀ entry ∈ Interrupts.plainInterrupts,
    isPlain 30 entry.2 = true := by
  decide +kernel

theorem plain_modes : ∀ entry ∈ VideoModes.modes, isPlain 40 entry.2 = true := by
  decide +kernel

theorem Interrupts.plain_describe (number ah al : UInt8) : Plain 30 (describe number ah al) := by
  unfold describe
  split
  · next service h =>
    obtain ⟨hother, hfunctions⟩ := plain_services service (List.mem_of_find?_eq_some h)
    exact plain_lookup hfunctions hother _
  · exact plain_lookup plain_plainInterrupts (show isPlain 30 "" = true by decide) number

theorem VideoModes.plain_describeValue (mode : UInt16) : Plain 40 (describeValue mode) :=
  plain_lookup plain_modes (by decide) _

theorem AccessModes.plain_describe (mode : UInt8) : Plain 10 (describe mode) := by
  unfold describe
  split <;> exact plain_of_isPlain (by decide)

/-! ### Pieces -/

theorem plain_registerColumn {label : String} (hlabel : isPlain 2 label = true)
    (value : UInt16) : Plain 8 (String.join (registerColumn label value)) := by
  have hsizes : List.Forall₂ Plain [1, 2, 1, 4] (registerColumn label value) := by
    simp only [registerColumn, List.forall₂_cons]
    exact ⟨plain_of_isPlain (by decide), plain_of_isPlain hlabel, plain_of_isPlain (by decide),
      plain_hexWord value, .nil⟩
  exact .join hsizes

theorem plain_stamp (elapsed : UInt64) : Plain 27 (String.join (stampPieces elapsed)) := by
  have hdigits : elapsed.toNat < 10 ^ 20 := Nat.lt_trans elapsed.toNat_lt (by decide)
  have hsizes : List.Forall₂ Plain [3, 20, 4] (stampPieces elapsed) := by
    simp only [stampPieces, List.forall₂_cons]
    exact ⟨plain_of_isPlain (by decide), plain_decimalPad (by decide) (by decide) hdigits,
      plain_of_isPlain (by decide), .nil⟩
  exact .join hsizes

/-- Eight opcode bytes and twelve registers. -/
theorem plain_instructionPieces (cs ip : UInt16) {opcode : List UInt8}
    (h : opcode.length = opcodeWindow) (r : Registers) :
    Plain 143 (String.join (instructionPieces cs ip opcode r)) := by
  have hopcode : opcode.length * 3 - 1 ≤ opcodeColumn := by rw [h]; decide
  have hsizes : List.Forall₂ Plain [6, 4, 1, 4, 8, 23, 1]
      ["CS:IP=", hexWord cs, ":", hexWord ip, "  BYTES=", hexColumn opcodeColumn opcode, " "] := by
    simp only [List.forall₂_cons]
    exact ⟨plain_of_isPlain (by decide), plain_hexWord cs, plain_of_isPlain (by decide),
      plain_hexWord ip, plain_of_isPlain (by decide), plain_hexColumn hopcode,
      plain_of_isPlain (by decide), .nil⟩
  exact (Plain.join hsizes)
    |>.join_append (plain_registerColumn (by decide) r.ax)
    |>.join_append (plain_registerColumn (by decide) r.bx)
    |>.join_append (plain_registerColumn (by decide) r.cx)
    |>.join_append (plain_registerColumn (by decide) r.dx)
    |>.join_append (plain_registerColumn (by decide) r.si)
    |>.join_append (plain_registerColumn (by decide) r.di)
    |>.join_append (plain_registerColumn (by decide) r.bp)
    |>.join_append (plain_registerColumn (by decide) r.sp)
    |>.join_append (plain_registerColumn (by decide) r.ds)
    |>.join_append (plain_registerColumn (by decide) r.es)
    |>.join_append (plain_registerColumn (by decide) r.ss)
    |>.join_append (plain_registerColumn (by decide) r.flags)

theorem plain_descriptionPieces {description : String} {n : Nat} (h : Plain n description) :
    Plain (n + 3) (String.join (descriptionPieces description)) := by
  have hsizes : List.Forall₂ Plain [2, n, 1] [" (", description, ")"] := by
    simp only [List.forall₂_cons]
    exact ⟨plain_of_isPlain (by decide), h, plain_of_isPlain (by decide), .nil⟩
  unfold descriptionPieces
  split_ifs
  · exact plain_empty.mono (Nat.zero_le _)
  · exact (Plain.join hsizes).mono (by simp only [List.foldr_cons, List.foldr_nil]; omega)

/-- A description and eight registers. -/
theorem plain_interruptPieces (number : UInt8) (r : Registers) :
    Plain 122 (String.join (interruptPieces number r)) := by
  have hsizes : List.Forall₂ Plain [7, 2, 5, 2, 5, 2, 1]
      [">> INT ", hexByte number, "h AH=", hexByte r.ah, "h AL=", hexByte r.al, "h"] := by
    simp only [List.forall₂_cons]
    exact ⟨plain_of_isPlain (by decide), plain_hexByte number, plain_of_isPlain (by decide),
      plain_hexByte r.ah, plain_of_isPlain (by decide), plain_hexByte r.al,
      plain_of_isPlain (by decide), .nil⟩
  have hspace : List.Forall₂ Plain [1] [" "] := .cons (plain_of_isPlain (by decide)) .nil
  exact (Plain.join hsizes)
    |>.join_append (plain_descriptionPieces (Interrupts.plain_describe number r.ah r.al))
    |>.join_append (.join hspace)
    |>.join_append (plain_registerColumn (by decide) r.ax)
    |>.join_append (plain_registerColumn (by decide) r.bx)
    |>.join_append (plain_registerColumn (by decide) r.cx)
    |>.join_append (plain_registerColumn (by decide) r.dx)
    |>.join_append (plain_registerColumn (by decide) r.si)
    |>.join_append (plain_registerColumn (by decide) r.di)
    |>.join_append (plain_registerColumn (by decide) r.ds)
    |>.join_append (plain_registerColumn (by decide) r.es)

/-- Three digits for the number of bytes, and three characters for each byte but the last. -/
theorem plain_fileData {bytes : List UInt8} (h : bytes.length ≤ dumpCeiling.toNat) :
    Plain 1564 (String.join (Payload.fileData bytes).pieces) := by
  have hlength : bytes.length ≤ 512 := h
  have hsizes : List.Forall₂ Plain [17, 3, 9]
      ["FILE DATA [first ", decimal bytes.length, " bytes]: "] := by
    simp only [List.forall₂_cons]
    exact ⟨plain_of_isPlain (by decide), plain_decimal (by decide) (by omega),
      plain_of_isPlain (by decide), .nil⟩
  exact ((Plain.join hsizes).join_append (plain_hexPieces bytes)).mono (by
    simp only [List.foldr_cons, List.foldr_nil]
    omega)

theorem plain_exitCode (exitCode : UInt8) : Plain 3 (decimal exitCode.toNat) :=
  plain_decimal (by decide) (Nat.lt_trans exitCode.toNat_lt (by decide))

theorem plain_terminated (exitCode : UInt8) {depth : Int} {k : Nat} (hk : 0 < k)
    (h : depth.natAbs < 10 ^ k) :
    Plain (61 + k) (String.join (Payload.terminated exitCode depth).pieces) := by
  have hsizes : List.Forall₂ Plain [34, 3, 18, 1 + k, 5]
      (Payload.terminated exitCode depth).pieces := by
    simp only [Payload.pieces, List.forall₂_cons]
    exact ⟨plain_of_isPlain (by decide), plain_exitCode exitCode, plain_of_isPlain (by decide),
      plain_signed hk h, plain_of_isPlain (by decide), .nil⟩
  exact (Plain.join hsizes).mono (by simp only [List.foldr_cons, List.foldr_nil]; omega)

theorem plain_stayedResident (exitCode : UInt8) {depth : Int} {k : Nat} (hk : 0 < k)
    (h : depth.natAbs < 10 ^ k) :
    Plain (56 + k) (String.join (Payload.stayedResident exitCode depth).pieces) := by
  have hsizes : List.Forall₂ Plain [39, 3, 8, 1 + k, 5]
      (Payload.stayedResident exitCode depth).pieces := by
    simp only [Payload.pieces, List.forall₂_cons]
    exact ⟨plain_of_isPlain (by decide), plain_exitCode exitCode, plain_of_isPlain (by decide),
      plain_signed hk h, plain_of_isPlain (by decide), .nil⟩
  exact (Plain.join hsizes).mono (by simp only [List.foldr_cons, List.foldr_nil]; omega)

theorem plain_videoMode (oldMode newMode : UInt16) :
    Plain 122 (String.join (Payload.videoMode oldMode newMode).pieces) := by
  have hsizes : List.Forall₂ Plain [19, 4, 3, 40, 5, 4, 3, 40, 1]
      (Payload.videoMode oldMode newMode).pieces := by
    simp only [Payload.pieces, List.forall₂_cons]
    exact ⟨plain_of_isPlain (by decide), plain_hexShort oldMode, plain_of_isPlain (by decide),
      VideoModes.plain_describeValue oldMode, plain_of_isPlain (by decide),
      plain_hexShort newMode, plain_of_isPlain (by decide),
      VideoModes.plain_describeValue newMode, plain_of_isPlain (by decide), .nil⟩
  exact (Plain.join hsizes).mono (by decide)

/-- A payload without texts from outside is plain, and leaves room for the stamp unless it shows a
depth of too many digits. -/
theorem Payload.plain_pieces {p : Payload} {k : Nat} (hk : 0 < k) (hnames : p.names = [])
    (hwindow : p.Windowed) (hdepth : ∀ depth ∈ p.depth?, depth.natAbs < 10 ^ k) :
    Plain (max (p.capacity - 27) (61 + k)) (String.join p.pieces) := by
  have hline {n : Nat} (h : n ≤ 485) : n ≤ max (lineCapacity - 27) (61 + k) :=
    Nat.le_trans h (Nat.le_max_left ..)
  have hdata : 1564 ≤ max (dataLineCapacity - 27) (61 + k) :=
    Nat.le_trans (by decide) (Nat.le_max_left ..)
  cases p with
  | instruction cs ip opcode r =>
    exact (plain_instructionPieces cs ip hwindow r).mono (hline (by decide))
  | interrupt number r => exact (plain_interruptPieces number r).mono (hline (by decide))
  | fileData bytes => exact (plain_fileData hwindow).mono hdata
  | activated =>
    have hsizes : List.Forall₂ Plain [36] Payload.activated.pieces :=
      .cons (plain_of_isPlain (by decide)) .nil
    exact (Plain.join hsizes).mono (hline (by decide))
  | terminated exitCode depth =>
    exact (plain_terminated exitCode hk (hdepth depth rfl)).mono (Nat.le_max_right ..)
  | stayedResident exitCode depth =>
    exact (plain_stayedResident exitCode hk (hdepth depth rfl)).mono (by omega)
  | videoMode oldMode newMode => exact (plain_videoMode oldMode newMode).mono (hline (by decide))
  | _ => exact absurd hnames (List.cons_ne_nil _ _)

/-! ### Lines -/

theorem Payload.lineCapacity_le (p : Payload) : lineCapacity ≤ p.capacity := by
  cases p with
  | fileData bytes => exact (by decide : lineCapacity ≤ dataLineCapacity)
  | _ => exact Nat.le_refl lineCapacity

namespace Record

theorem lineCapacity_le (r : Record) : lineCapacity ≤ r.capacity := by
  cases r with
  | timed elapsed payload => exact payload.lineCapacity_le
  | banner b => exact Nat.le_refl lineCapacity

/-- The depth that a line shows. -/
def depth? : Record → Option Int
  | .timed _ payload => payload.depth?
  | .banner _ => none

/-- As many bytes of memory as a line shows. -/
def Windowed : Record → Prop
  | .timed _ payload => payload.Windowed
  | .banner _ => True

/-- The line begins with the time, or with the mark of a banner. -/
theorem full_eq (r : Record) : r.full =
    match r with
    | .timed elapsed payload =>
      "[T+" ++ decimalPad 8 elapsed.toNat ++ "ms] " ++ String.join payload.pieces
    | .banner b => "[debugtrace] " ++ b.text := by
  cases r with
  | timed elapsed payload =>
    simp only [full, pieces, stampPieces, String.join_append, String.join_cons, String.join_nil,
      String.append_empty, String.append_assoc]
  | banner b =>
    simp only [full, pieces, String.join_cons, String.join_nil, String.append_empty,
      ← String.append_assoc]
    rfl

theorem plain_full {r : Record} {k : Nat} (hk : 0 < k) (hnames : r.names = [])
    (hwindow : r.Windowed) (hdepth : ∀ depth ∈ r.depth?, depth.natAbs < 10 ^ k) :
    Plain (max r.capacity (88 + k)) r.full := by
  cases r with
  | timed elapsed payload =>
    refine ((plain_stamp elapsed).join_append
      (payload.plain_pieces hk hnames hwindow hdepth)).mono ?_
    have hcapacity : 512 ≤ payload.capacity := payload.lineCapacity_le
    show 27 + max (payload.capacity - 27) (61 + k) ≤ max payload.capacity (88 + k)
    omega
  | banner b =>
    refine Plain.mono ?_ (show 512 ≤ max lineCapacity (88 + k) from Nat.le_max_left ..)
    cases b with
    | fallback error => exact absurd hnames (List.cons_ne_nil _ _)
    | _ => exact plain_of_isPlain (by decide)

/-- A line without texts from outside is written whole, unless it shows a depth of more than four
hundred digits. -/
theorem text_eq_full_of_names {r : Record} (hnames : r.names = []) (hwindow : r.Windowed)
    (hdepth : ∀ depth ∈ r.depth?, depth.natAbs < 10 ^ 400) : r.text = r.full := by
  refine text_eq_full (Nat.le_trans (plain_full (by decide) hnames hwindow hdepth).size_le ?_)
  have hcapacity : 512 ≤ r.capacity := r.lineCapacity_le
  omega

end Record

end RealModeTrace
