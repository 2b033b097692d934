import RealModeTrace.Proofs.Json.Scalars

/-!
# Reading values back

A value that is written on one line is read back, if its numbers are ones that the reader keeps so
and it does not nest deeper than the reader goes.

* `Legible depth v`: the value is such, and nests at most `depth` deep;
* `Legible.readValue_written`: it is read from the head of a text;
* `parse?_compact`: it is read from the whole text.
-/

namespace RealModeTrace.Json

open Text

/-! ### Written values -/

/-- The characters of a value on one line. -/
def written (v : Json) : List Char :=
  v.compactPieces.flatMap String.toList

/-- The characters of a member of an object. -/
def memberWritten (m : String × Json) : List Char :=
  (quoted m.1).toList ++ ':' :: m.2.written

/-- Texts with commas between them. -/
def commas (texts : List (List Char)) : List Char :=
  [','].intercalate texts

@[simp] theorem commas_singleton (text : List Char) : commas [text] = text :=
  List.intercalate_singleton

@[simp] theorem commas_cons_cons (text next : List Char) (texts : List (List Char)) :
    commas (text :: next :: texts) = text ++ ',' :: commas (next :: texts) := by
  simp [commas, List.intercalate_cons_cons]

@[simp] theorem toList_compact (v : Json) : v.compact.toList = v.written :=
  String.toList_join

theorem toList_quoted (s : String) :
    (quoted s).toList = '"' :: (s.toList.flatMap escapeChar ++ ['"']) := by
  rw [quoted, String.toList_ofList, List.cons_append]

theorem toList_compactItems (items : List Json) :
    (compactItems items).flatMap String.toList = commas (items.map written) := by
  induction items with
  | nil => rfl
  | cons v items ih => cases items with
    | nil => simp [compactItems, written]
    | cons w items => simpa [compactItems, written] using ih

theorem toList_compactMembers (members : List (String × Json)) :
    (compactMembers members).flatMap String.toList = commas (members.map memberWritten) := by
  induction members with
  | nil => rfl
  | cons m members ih => cases members with
    | nil => simp [compactMembers, memberWritten, written]
    | cons n members => simpa [compactMembers, memberWritten, written] using ih

theorem written_array (items : List Json) :
    (array items).written = '[' :: (commas (items.map written) ++ [']']) := by
  simp [written, compactPieces, toList_compactItems]

theorem written_object (members : List (String × Json)) :
    (object members).written = '\x7b' :: (commas (members.map memberWritten) ++ ['\x7d']) := by
  simp [written, compactPieces, toList_compactMembers]

theorem written_string (s : String) :
    (string s).written = '"' :: (s.toList.flatMap escapeChar ++ ['"']) := by
  simp [written, compactPieces, scalarText, toList_quoted]

theorem written_integer (n : Int) : (integer n).written = (signed n).toList := by
  simp [written, compactPieces, scalarText]

theorem written_real (spelling : String) : (real spelling).written = spelling.toList := by
  simp [written, compactPieces, scalarText]

/-! ### Sizes -/

theorem exists_commas_cons (text : List Char) (texts : List (List Char)) :
    ∃ t, commas (text :: texts) = text ++ t := by
  cases texts with
  | nil => exact ⟨[], by simp⟩
  | cons next texts => exact ⟨_, commas_cons_cons text next texts⟩

/-- There are no more texts than characters, but for one. -/
theorem length_le_commas (texts : List (List Char)) :
    texts.length ≤ (commas texts).length + 1 := by
  induction texts with
  | nil => simp
  | cons text texts ih => cases texts with
    | nil => simp
    | cons next texts =>
      simp only [commas_cons_cons, List.length_append, List.length_cons] at ih ⊢
      omega

theorem length_le_commas_of_mem {text : List Char} {texts : List (List Char)} (h : text ∈ texts) :
    text.length ≤ (commas texts).length := by
  induction texts with
  | nil => cases h
  | cons other texts ih =>
    rcases List.mem_cons.1 h with rfl | h
    · obtain ⟨t, ht⟩ := exists_commas_cons text texts
      simp [ht]
    · have := ih h
      cases texts with
      | nil => cases h
      | cons next texts =>
        simp only [commas_cons_cons, List.length_append, List.length_cons]
        omega

theorem length_written_le_member (m : String × Json) :
    m.2.written.length ≤ (memberWritten m).length := by
  simp only [memberWritten, List.length_append, List.length_cons]
  omega

/-! ### Legible values -/

/-- The numbers of the value are what their own texts say, and its arrays and objects nest at most
`depth` deep. -/
inductive Legible : (depth : Nat) → Json → Prop
  | null {depth : Nat} : Legible depth .null
  | bool {depth : Nat} (b : Bool) : Legible depth (.bool b)
  | integer {depth : Nat} {n : Int} (h : readNumber (signed n).toList = some (.integer n, [])) :
    Legible depth (.integer n)
  | real {depth : Nat} {spelling : String}
    (h : readNumber spelling.toList = some (.real spelling, [])) : Legible depth (.real spelling)
  | string {depth : Nat} (s : String) : Legible depth (.string s)
  | array {depth : Nat} {items : List Json} (h : ∀ v ∈ items, Legible depth v) :
    Legible (depth + 1) (.array items)
  | object {depth : Nat} {members : List (String × Json)} (h : ∀ m ∈ members, Legible depth m.2) :
    Legible (depth + 1) (.object members)

namespace Legible

variable {depth : Nat} {v : Json}

theorem mono (h : Legible depth v) {bound : Nat} (hle : depth ≤ bound) : Legible bound v := by
  induction h generalizing bound with
  | null => exact .null
  | bool b => exact .bool b
  | integer h => exact .integer h
  | real h => exact .real h
  | string s => exact .string s
  | array _ ih =>
    obtain ⟨bound, rfl⟩ := Nat.exists_eq_add_of_lt (Nat.lt_of_lt_of_le (Nat.succ_pos _) hle)
    exact .array fun v hv => ih v hv (by omega)
  | object _ ih =>
    obtain ⟨bound, rfl⟩ := Nat.exists_eq_add_of_lt (Nat.lt_of_lt_of_le (Nat.succ_pos _) hle)
    exact .object fun m hm => ih m hm (by omega)

theorem of_kept {n : Int} (h : Kept n) : Legible depth (.integer n) :=
  .integer (readNumber_signed h)

/-- A value begins with a character that is no white space and does not end an array. -/
theorem head (h : Legible depth v) :
    ∃ c t, v.written = c :: t ∧ isSpace c = false ∧ c ≠ ']' := by
  cases h with
  | null => exact ⟨'n', ['u', 'l', 'l'], rfl, rfl, by decide⟩
  | bool b => cases b with
    | false => exact ⟨'f', ['a', 'l', 's', 'e'], rfl, rfl, by decide⟩
    | true => exact ⟨'t', ['r', 'u', 'e'], rfl, rfl, by decide⟩
  | integer h =>
    obtain ⟨c, t, hcs, hc⟩ := head_of_readNumber h
    exact ⟨c, t, (written_integer _).trans hcs, hc.not_isSpace, hc.ne (by decide)⟩
  | real h =>
    obtain ⟨c, t, hcs, hc⟩ := head_of_readNumber h
    exact ⟨c, t, (written_real _).trans hcs, hc.not_isSpace, hc.ne (by decide)⟩
  | string s => exact ⟨'"', _, written_string s, rfl, by decide⟩
  | array _ => exact ⟨'[', _, written_array _, rfl, by decide⟩
  | object _ => exact ⟨'\x7b', _, written_object _, rfl, by decide⟩

end Legible

/-! ### Values at the head of a text -/

variable {limit depth : Nat} {c : Char} {cs r : List Char} {v : Json}

theorem skipSpaces_of_head (h : isSpace c = false) : skipSpaces (c :: cs) = c :: cs :=
  List.dropWhile_cons_of_neg (by rw [h]; exact Bool.false_ne_true)

theorem readScalar_of_readNumber (h : readNumber cs = some (v, r)) :
    readScalar cs = some (v, r) := by
  obtain ⟨c, t, rfl, hc⟩ := head_of_readNumber h
  have hn : c ≠ 'n' := hc.ne (by decide)
  have ht : c ≠ 't' := hc.ne (by decide)
  have hf : c ≠ 'f' := hc.ne (by decide)
  have hquote : c ≠ '"' := hc.ne (by decide)
  simp [readScalar, hn, ht, hf, hquote, h]

theorem readScalar_quoted (s : String) (r : List Char) :
    readScalar ((string s).written ++ r) = some (.string s, r) := by
  rw [written_string, List.cons_append, List.append_assoc, readScalar, List.singleton_append,
    readString_escaped, Option.map_some, String.ofList_toList]

/-- A text that begins neither with white space nor with a bracket or brace holds a scalar. -/
theorem readValue_of_head (hspace : isSpace c = false) (harray : c ≠ '[') (hobject : c ≠ '\x7b') :
    readValue limit depth (c :: cs) = readScalar (c :: cs) := by
  cases depth with
  | zero => rw [readValue, skipSpaces_of_head hspace]
  | succ depth =>
    rw [readValue, skipSpaces_of_head hspace]
    simp [harray, hobject]

theorem readValue_array : readValue limit (depth + 1) ('[' :: cs) =
    readArray (readValue limit depth) limit cs := rfl

theorem readValue_object : readValue limit (depth + 1) ('\x7b' :: cs) =
    readObject (readValue limit depth) limit cs := rfl

theorem readValue_of_readNumber (h : readNumber cs = some (v, r)) :
    readValue limit depth cs = some (v, r) := by
  obtain ⟨c, t, rfl, hc⟩ := head_of_readNumber h
  rw [readValue_of_head hc.not_isSpace (hc.ne (by decide)) (hc.ne (by decide))]
  exact readScalar_of_readNumber h

/-! ### Arrays and objects -/

/-- The reader gives the value that is written at the head of a text. -/
def Reads (item : ValueReader) (v : Json) : Prop :=
  ∀ r, Ended r → item (v.written ++ r) = some (v, r)

variable {item : ValueReader}

/-- Items are read one by one, as many of them as the limit allows. -/
theorem readItems_written {items : List Json} (hne : items ≠ []) (h : ∀ v ∈ items, Reads item v)
    (hlimit : items.length ≤ limit) (r : List Char) :
    readItems item limit (commas (items.map written) ++ ']' :: r) = some (items, r) := by
  induction items generalizing limit with
  | nil => exact absurd rfl hne
  | cons v items ih =>
    obtain ⟨hv, hitems⟩ := List.forall_mem_cons.1 h
    rw [List.length_cons] at hlimit
    obtain ⟨limit, rfl⟩ : ∃ k, limit = k + 1 := ⟨limit - 1, by omega⟩
    cases items with
    | nil =>
      rw [List.map_singleton, commas_singleton, readItems, hv _ (ended_cons rfl)]
      rfl
    | cons w items =>
      have hrest := @ih limit (List.cons_ne_nil w items) hitems (by omega)
      rw [List.map_cons] at hrest ⊢
      rw [List.map_cons, commas_cons_cons, List.append_assoc, List.cons_append, readItems,
        hv _ (ended_cons rfl)]
      show (readItems item limit _).bind _ = _
      rw [hrest]
      rfl

theorem readName_quoted (name : String) (r : List Char) :
    readName ((quoted name).toList ++ ':' :: r) = some (name, r) := by
  rw [toList_quoted, List.cons_append, List.append_assoc, List.singleton_append]
  show (readString _).bind _ = _
  rw [readString_escaped, Option.bind_some]
  show some (String.ofList name.toList, r) = _
  rw [String.ofList_toList]

theorem readMembers_written {members : List (String × Json)} (hne : members ≠ [])
    (h : ∀ m ∈ members, Reads item m.2) (hlimit : members.length ≤ limit) (r : List Char) :
    readMembers item limit (commas (members.map memberWritten) ++ '\x7d' :: r) =
      some (members, r) := by
  induction members generalizing limit with
  | nil => exact absurd rfl hne
  | cons m members ih =>
    obtain ⟨hm, hmembers⟩ := List.forall_mem_cons.1 h
    rw [List.length_cons] at hlimit
    obtain ⟨limit, rfl⟩ : ∃ k, limit = k + 1 := ⟨limit - 1, by omega⟩
    cases members with
    | nil =>
      rw [List.map_singleton, commas_singleton, memberWritten, List.append_assoc, List.cons_append,
        readMembers, readName_quoted, Option.bind_eq_bind, Option.bind_some]
      show (item _).bind _ = _
      rw [hm _ (ended_cons rfl)]
      rfl
    | cons n members =>
      have hrest := @ih limit (List.cons_ne_nil n members) hmembers (by omega)
      rw [List.map_cons] at hrest ⊢
      rw [List.map_cons, commas_cons_cons, memberWritten, List.append_assoc, List.append_assoc,
        List.cons_append, List.cons_append, readMembers, readName_quoted, Option.bind_eq_bind,
        Option.bind_some]
      show (item _).bind _ = _
      rw [hm _ (ended_cons rfl)]
      show (readMembers item limit _).bind _ = _
      rw [hrest]
      rfl

/-- What follows the bracket is not taken for the end of an empty array. -/
theorem readArray_written {items : List Json} (h : ∀ v ∈ items, Reads item v)
    (hhead : ∀ v ∈ items, ∃ c t, v.written = c :: t ∧ isSpace c = false ∧ c ≠ ']')
    (hlimit : items.length ≤ limit) (r : List Char) :
    readArray item limit (commas (items.map written) ++ ']' :: r) = some (.array items, r) := by
  cases items with
  | nil => rfl
  | cons v items =>
    obtain ⟨c, t, hv, hspace, hne⟩ := hhead v List.mem_cons_self
    obtain ⟨u, hu⟩ := exists_commas_cons v.written (items.map written)
    have hitems := readItems_written (List.cons_ne_nil v items) h hlimit r
    rw [List.map_cons, hu, hv, List.cons_append, List.cons_append] at hitems ⊢
    rw [readArray, skipSpaces_of_head hspace, hitems]
    split
    · next heq => exact absurd (List.cons.inj heq).1 hne
    · rfl

theorem readObject_written {members : List (String × Json)} (h : ∀ m ∈ members, Reads item m.2)
    (hlimit : members.length ≤ limit) (r : List Char) :
    readObject item limit (commas (members.map memberWritten) ++ '\x7d' :: r) =
      some (.object members, r) := by
  cases members with
  | nil => rfl
  | cons m members =>
    obtain ⟨t, ht⟩ := exists_commas_cons (memberWritten m) (members.map memberWritten)
    have hmembers := readMembers_written (List.cons_ne_nil m members) h hlimit r
    rw [List.map_cons, ht, memberWritten, toList_quoted, List.cons_append, List.cons_append,
      List.cons_append] at hmembers ⊢
    rw [readObject, skipSpaces_of_head (by decide), hmembers]
    rfl

/-- **Legible values are read back.** At the head of a text that does not go on with a number, the
reader gives the value that is written there. -/
theorem Legible.readValue_written (h : Legible depth v) (hlimit : v.written.length ≤ limit) :
    Reads (readValue limit depth) v := by
  induction h with
  | null => exact fun r _ => readValue_of_head (c := 'n') rfl (by decide) (by decide)
  | bool b =>
    cases b with
    | false => exact fun r _ => readValue_of_head (c := 'f') rfl (by decide) (by decide)
    | true => exact fun r _ => readValue_of_head (c := 't') rfl (by decide) (by decide)
  | integer h =>
    intro r hr
    rw [written_integer]
    exact readValue_of_readNumber (readNumber_append hr h)
  | real h =>
    intro r hr
    rw [written_real]
    exact readValue_of_readNumber (readNumber_append hr h)
  | string s =>
    intro r _
    have hs := readScalar_quoted s r
    rw [written_string, List.cons_append] at hs ⊢
    rwa [readValue_of_head rfl (by decide) (by decide)]
  | @array depth items hitems ih =>
    intro r _
    -- the limit is above the number of the items, and above the size of each of them
    rw [written_array, List.length_cons, List.length_append, List.length_singleton] at hlimit
    have hcount := length_le_commas (items.map written)
    rw [List.length_map] at hcount
    rw [written_array, List.cons_append, List.append_assoc, readValue_array]
    refine readArray_written (fun v hv => ih v hv ?_) (fun v hv => (hitems v hv).head) (by omega) r
    have := length_le_commas_of_mem (List.mem_map_of_mem (f := written) hv)
    omega
  | @object depth members hmembers ih =>
    intro r _
    rw [written_object, List.length_cons, List.length_append, List.length_singleton] at hlimit
    have hcount := length_le_commas (members.map memberWritten)
    rw [List.length_map] at hcount
    rw [written_object, List.cons_append, List.append_assoc, readValue_object]
    refine readObject_written (fun m hm => ih m hm ?_) (by omega) r
    have := length_le_commas_of_mem (List.mem_map_of_mem (f := memberWritten) hm)
    have := length_written_le_member m
    omega

/-- **A legible value is what its text says.** -/
theorem parse?_compact (h : Legible nestingLimit v) : parse? v.compact = some v := by
  have hread := h.readValue_written (Nat.le_refl v.written.length) [] ended_nil
  rw [List.append_nil] at hread
  rw [parse?, toList_compact, hread]
  rfl

end RealModeTrace.Json
