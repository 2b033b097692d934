import RealModeTrace.Proofs.Event.RoundTrip
import RealModeTrace.Proofs.Text.Plain

/-!
# Events on one line

The text of an event stands on one line whatever strings the event holds: a line feed in a string is
written as an escape. It begins and ends with a brace.

* `Json.OneLine`: a value is written without line feeds; `oneLine_array`, `oneLine_object`: arrays
  and objects are if what they hold is;
* `Event.newline_notMem_render`, `Event.render_ends`: the text of an event.
-/

namespace RealModeTrace

open Text

namespace Json

/-- No line ends within the value as it is written. -/
def OneLine (v : Json) : Prop :=
  '\n' ∉ v.written

theorem hexDigit_ne_newline : ∀ n, n < 16 → (hexDigit n).toLower ≠ '\n' := by
  decide

/-- The escape of a character has no line feed. -/
theorem newline_notMem_escapeChar (c : Char) : '\n' ∉ escapeChar c := by
  unfold escapeChar
  split_ifs with hquote hslash hb ht hn hf hr hcontrol
  -- the escapes of one letter, then the one by number, then characters that stand for themselves
  any_goals decide
  · have hsmall : c.toNat < 32 := hcontrol
    have hhigh := hexDigit_ne_newline (c.toNat / 16) (by omega)
    have hlow := hexDigit_ne_newline (c.toNat % 16) (by omega)
    simp [hhigh.symm, hlow.symm]
  · intro hmem
    exact hn (List.mem_singleton.1 hmem).symm

theorem newline_notMem_quoted (s : String) : '\n' ∉ (quoted s).toList := by
  rw [toList_quoted]
  simp [newline_notMem_escapeChar]

theorem newline_notMem_commas {texts : List (List Char)} (h : ∀ text ∈ texts, '\n' ∉ text) :
    '\n' ∉ commas texts := by
  induction texts with
  | nil => exact List.not_mem_nil
  | cons text texts ih => cases texts with
    | nil => simpa using h
    | cons next texts =>
      have htext := h text List.mem_cons_self
      have hrest := ih fun t ht => h t (List.mem_cons_of_mem text ht)
      simp [htext, hrest]

theorem oneLine_null : OneLine .null := by
  unfold OneLine
  decide +kernel

theorem oneLine_bool (b : Bool) : OneLine (.bool b) := by
  unfold OneLine
  cases b <;> decide +kernel

theorem oneLine_string (s : String) : OneLine (.string s) := by
  rw [OneLine, written_string, ← toList_quoted]
  exact newline_notMem_quoted s

theorem oneLine_integer (n : Int) : OneLine (.integer n) := by
  have hdigits : n.natAbs < 10 ^ (n.natAbs + 1) :=
    Nat.lt_trans n.natAbs.lt_succ_self (Nat.lt_pow_self (by decide))
  rw [OneLine, written_integer]
  exact (plain_signed n.natAbs.succ_pos hdigits).newline_notMem

theorem oneLine_ofOption {α : Type} {f : α → Json} (h : ∀ a, OneLine (f a)) (a : Option α) :
    OneLine (ofOption f a) := by
  cases a with
  | none => exact oneLine_null
  | some a => exact h a

theorem oneLine_array {items : List Json} (h : ∀ v ∈ items, OneLine v) :
    OneLine (.array items) := by
  have hitems : '\n' ∉ commas (items.map written) :=
    newline_notMem_commas (List.forall_mem_map.2 h)
  rw [OneLine, written_array]
  simp [hitems]

theorem oneLine_object {members : List (String × Json)} (h : ∀ m ∈ members, OneLine m.2) :
    OneLine (.object members) := by
  have hmembers : '\n' ∉ commas (members.map memberWritten) := by
    refine newline_notMem_commas (List.forall_mem_map.2 fun m hm => ?_)
    have hvalue : '\n' ∉ m.2.written := h m hm
    simp [memberWritten, newline_notMem_quoted, hvalue]
  rw [OneLine, written_object]
  simp [hmembers]

end Json

namespace Event

open Json

theorem oneLine_fieldValues (e : Event) : ∀ v ∈ e.fieldValues, OneLine v := by
  have hword : ∀ w : UInt16, OneLine (.word w) := fun w => oneLine_integer w.toNat
  have hnat : ∀ n : Nat, OneLine (.nat n) := fun n => oneLine_integer n
  have hbytes : ∀ bs : List UInt8, OneLine (.array (bs.map fun b => .nat b.toNat)) := fun bs =>
    oneLine_array (List.forall_mem_map.2 fun b _ => hnat b.toNat)
  have hstring : ∀ s : Option String, OneLine (.ofOption .string s) :=
    oneLine_ofOption oneLine_string
  cases e with
  | setRegisters patch =>
    intro v hv
    obtain ⟨r, -, rfl⟩ := List.mem_map.1 hv
    exact oneLine_ofOption hword _
  | _ => simp [fieldValues, hword, hnat, hbytes, hstring, oneLine_string, oneLine_bool]

/-- No line ends within the text of an event. -/
theorem newline_notMem_render (e : Event) : '\n' ∉ e.render.toList := by
  rw [render, toList_compact]
  refine oneLine_object (List.forall_mem_cons.2 ⟨oneLine_string _, fun m hm => ?_⟩)
  exact e.oneLine_fieldValues _ (List.of_mem_zip hm).2

/-- The text of an event stands between braces. -/
theorem render_ends (e : Event) : ∃ cs, e.render.toList = '\x7b' :: cs ++ ['\x7d'] := by
  rw [render, toList_compact, toJson, written_object]
  exact ⟨_, rfl⟩

end Event

end RealModeTrace
