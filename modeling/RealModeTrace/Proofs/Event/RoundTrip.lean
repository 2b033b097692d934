import RealModeTrace.Event.Codec
import RealModeTrace.Proofs.Json.RoundTrip
import Mathlib.Data.List.Nodup

/-!
# Reading events back

An event is read back from its text, and from other texts that say the same: with its members in
another order and others among them, and as an array.

* `lookup_of_perm`: where a name has one member at most, the order of the members does not matter;
* `ofFields?_fieldValues`: an event is given by its kind and the values of its fields;
* `parse?_texts`: all of these texts are read as the event.
-/

namespace RealModeTrace

/-! ### Values of fields -/

namespace Json

theorem below?_nat {n bound : Nat} (h : n < bound) : (nat n).below? bound = some n :=
  if_pos h

@[simp] theorem byte?_nat (b : UInt8) : (nat b.toNat).byte? = some b := by
  simp [byte?, below?_nat b.toNat_lt]

@[simp] theorem word?_word (w : UInt16) : (word w).word? = some w := by
  simp [word?, word, below?_nat w.toNat_lt]

@[simp] theorem long?_nat (n : UInt32) : (nat n.toNat).long? = some n := by
  simp [long?, below?_nat n.toNat_lt]

@[simp] theorem string?_string (s : String) : (string s).string? = some s := rfl

@[simp] theorem bool?_bool (b : Bool) : (bool b).bool? = some b := rfl

@[simp] theorem optional?_ofOption_word (w : Option UInt16) :
    (ofOption word w).optional? word? = some w := by
  cases w with
  | none => rfl
  | some w => exact congrArg (Option.map some) (word?_word w)

@[simp] theorem optional?_ofOption_string (s : Option String) :
    (ofOption string s).optional? string? = some s := by
  cases s <;> rfl

theorem legible_nat {depth n : Nat} (h : n < UInt64.size) : Legible depth (nat n) :=
  .of_kept ⟨by omega, Int.ofNat_lt.2 h⟩

theorem legible_ofOption {α : Type} {depth : Nat} {f : α → Json} (h : ∀ a, Legible depth (f a))
    (a : Option α) : Legible depth (ofOption f a) := by
  cases a with
  | none => exact .null
  | some a => exact h a

theorem legible_byte {depth : Nat} (b : UInt8) : Legible depth (nat b.toNat) :=
  legible_nat (Nat.lt_trans b.toNat_lt (by decide))

theorem legible_word {depth : Nat} (w : UInt16) : Legible depth (word w) :=
  legible_nat (Nat.lt_trans w.toNat_lt (by decide))

theorem legible_long {depth : Nat} (n : UInt32) : Legible depth (nat n.toNat) :=
  legible_nat (Nat.lt_trans n.toNat_lt (by decide))

/-! ### Members by name -/

variable {name : String} {members : List (String × Json)}

theorem lookup_eq_find (name : String) (members : List (String × Json)) :
    members.lookup name = (members.find? (·.1 == name)).map Prod.snd := by
  induction members with
  | nil => rfl
  | cons m members ih =>
    obtain ⟨other, v⟩ := m
    by_cases h : other = name
    · simp [h]
    · have hname : (name == other) = false := beq_false_of_ne (Ne.symm h)
      simp [List.lookup_cons, hname, h, ih]

/-- A member is found under its name if no other member has that name. -/
theorem lookup_of_mem {v : Json} (h : (name, v) ∈ members)
    (hone : (members.filter (·.1 == name)).length ≤ 1) : members.lookup name = some v := by
  have hmem : (name, v) ∈ members.filter (·.1 == name) :=
    List.mem_filter.2 ⟨h, beq_self_eq_true name⟩
  have hfilter : members.filter (·.1 == name) = [(name, v)] := by
    generalize members.filter (·.1 == name) = found at hmem hone
    rcases found with _ | ⟨m, _ | ⟨n, rest⟩⟩
    · cases hmem
    · rw [List.mem_singleton.1 hmem]
    · rw [List.length_cons, List.length_cons] at hone
      omega
  rw [lookup_eq_find, ← List.head?_filter, hfilter]
  rfl

/-- Names that do not occur twice belong to one member each. -/
theorem length_filter_le_of_nodup (h : (members.map Prod.fst).Nodup) (name : String) :
    (members.filter (·.1 == name)).length ≤ 1 := by
  have hcount := List.nodup_iff_count_le_one.1 h name
  rwa [List.count, List.countP_map, List.countP_eq_length_filter] at hcount

end Json

namespace Event

open Json

/-! ### Fields of an event -/

theorem length_fieldValues (e : Event) : e.fieldValues.length = e.kind.fieldNames.length := by
  cases e <;> rfl

theorem map_fst_members (e : Event) : e.members.map Prod.fst = e.kind.fieldNames :=
  List.map_fst_zip (Nat.le_of_eq e.length_fieldValues.symm)

theorem Kind.nodup_fieldNames (kind : Kind) : (kindMember :: kind.fieldNames).Nodup := by
  cases kind <;> decide

theorem mapM_eq_some {α β : Type} {f : α → Option β} {g : α → β} (h : ∀ a, f a = some (g a))
    (as : List α) : as.mapM f = some (as.map g) := by
  induction as with
  | nil => rfl
  | cons a as ih => simp [List.mapM_cons, h a, ih]

theorem patch_of_fields {fields : Fields} {p : RegisterPatch}
    (h : ∀ r : Register, fields r.name = some (.ofOption .word (p.get r))) :
    fields.patch = some p := by
  have hvalues : Register.all.mapM (fun r => fields.optional word? r.name) =
      some (Register.all.map p.get) :=
    mapM_eq_some (fun r => by simp [Fields.optional, h r]) _
  have hget : (fun r => ((Register.all.zip (Register.all.map p.get)).lookup r).join) = p.get := by
    funext r
    cases r <;> rfl
  simp [Fields.patch, hvalues, hget]

theorem bytes_of_field {fields : Fields} {name : String} {bs : List UInt8}
    (h : fields name = some (.array (bs.map fun b => .nat b.toNat))) :
    fields.bytes name = some bs := by
  have hbytes : (bs.map fun b => Json.nat b.toNat).mapM byte? = some bs := by
    rw [List.mapM_map]
    exact (mapM_eq_some byte?_nat bs).trans (congrArg some (List.map_id bs))
  simp [Fields.bytes, h, items?, hbytes]

/-- An event is given by its kind and the values of its fields. -/
theorem ofFields?_of_members {e : Event} {fields : Fields}
    (h : ∀ m ∈ e.members, fields m.1 = some m.2) : ofFields? e.kind fields = some e := by
  cases e with
  | setRegisters patch =>
    have hp : fields.patch = some patch := patch_of_fields fun r =>
      h (r.name, .ofOption .word (patch.get r)) (by cases r <;> simp [members, fieldValues, kind,
        Kind.fieldNames, Register.all])
    simp [ofFields?, kind, hp]
  | poke address bytes text =>
    simp only [members, kind, Kind.fieldNames, fieldValues, List.zip_cons_cons, List.zip_nil_right,
      List.forall_mem_cons] at h
    simp [ofFields?, kind, Fields.required, Fields.optional, h, bytes_of_field h.2.1]
  | _ =>
    simp only [members, kind, Kind.fieldNames, fieldValues, List.zip_cons_cons, List.zip_nil_right,
      List.forall_mem_cons] at h
    simp [ofFields?, kind, Fields.required, Fields.optional, h]

theorem ofJson?_object {e : Event} {members : List (String × Json)}
    (hsub : ∀ m ∈ (kindMember, .string e.kind.name) :: e.members, m ∈ members)
    (hone : ∀ name ∈ kindMember :: e.kind.fieldNames,
      (members.filter (·.1 == name)).length ≤ 1) :
    ofJson? (.object members) = some e := by
  obtain ⟨hkind, hfields⟩ := List.forall_mem_cons.1 hsub
  have hlookup : members.lookup kindMember = some (.string e.kind.name) :=
    lookup_of_mem hkind (hone _ List.mem_cons_self)
  have hnone : noneRepeated (kindMember :: e.kind.fieldNames) members = true :=
    List.all_eq_true.2 fun name hname => decide_eq_true (hone name hname)
  have hevent : ofFields? e.kind (fun name => members.lookup name) = some e := by
    refine ofFields?_of_members fun m hm => lookup_of_mem (hfields m hm) (hone m.1 ?_)
    rw [← map_fst_members]
    exact List.mem_cons_of_mem _ (List.mem_map_of_mem hm)
  simp [ofJson?, hlookup, Kind.ofName?_name, hnone, hevent]

/-- The members of an event in any order, with others of any other names among them, are read as
the event. -/
theorem ofJson?_of_perm {e : Event} {extra members : List (String × Json)}
    (hextra : ∀ m ∈ extra, m.1 ∉ kindMember :: e.kind.fieldNames)
    (hperm : members.Perm ((kindMember, .string e.kind.name) :: e.members ++ extra)) :
    ofJson? (.object members) = some e := by
  refine ofJson?_object (fun m hm => ?_) fun name hname => ?_
  · exact hperm.mem_iff.2 (List.mem_append_left extra hm)
  · have hnodup : (((kindMember, Json.string e.kind.name) :: e.members).map Prod.fst).Nodup := by
      rw [List.map_cons, map_fst_members]
      exact e.kind.nodup_fieldNames
    have hother : extra.filter (·.1 == name) = [] := by
      refine List.filter_eq_nil_iff.2 fun m hm heq => hextra m hm ?_
      rwa [eq_of_beq heq]
    -- the order and the other members do not change how often a name of the event occurs
    rw [(hperm.filter _).length_eq, List.filter_append, hother, List.append_nil]
    exact length_filter_le_of_nodup hnodup name

theorem ofJson?_toJson (e : Event) : ofJson? e.toJson = some e :=
  @ofJson?_of_perm e [] _ nofun (by rw [List.append_nil])

theorem ofJson?_toArray (e : Event) : ofJson? e.toArray = some e := by
  have hevent : ofFields? e.kind
      (fun name => (e.kind.fieldNames.zip e.fieldValues).lookup name) = some e := by
    refine ofFields?_of_members fun m hm => lookup_of_mem hm (length_filter_le_of_nodup ?_ _)
    show (e.members.map Prod.fst).Nodup
    rw [map_fst_members]
    exact (List.nodup_cons.1 e.kind.nodup_fieldNames).2
  simp [ofJson?, toArray, Kind.ofName?_name, length_fieldValues, hevent]

/-! ### Texts of an event -/

theorem legible_fieldValues (e : Event) : ∀ v ∈ e.fieldValues, Legible 1 v := by
  have hword : ∀ w : UInt16, Legible 1 (.word w) := legible_word
  have hbytes : ∀ bs : List UInt8, Legible 1 (.array (bs.map fun b => .nat b.toNat)) := fun bs =>
    .array fun v hv => by
      obtain ⟨b, -, rfl⟩ := List.mem_map.1 hv
      exact legible_byte b
  have hstring : ∀ s : Option String, Legible 1 (.ofOption .string s) :=
    legible_ofOption Legible.string
  cases e with
  | setRegisters patch =>
    intro v hv
    obtain ⟨r, -, rfl⟩ := List.mem_map.1 hv
    exact legible_ofOption hword _
  | _ =>
    simp [fieldValues, hword, hbytes, hstring, Legible.string, Legible.bool, legible_byte,
      legible_long]

theorem legible_members (e : Event) :
    ∀ m ∈ (kindMember, Json.string e.kind.name) :: e.members, Legible 1 m.2 := by
  refine List.forall_mem_cons.2 ⟨.string _, fun m hm => ?_⟩
  exact e.legible_fieldValues _ (List.of_mem_zip hm).2

theorem legible_toJson (e : Event) : Legible nestingLimit e.toJson :=
  (Legible.object e.legible_members).mono (by decide)

theorem legible_toArray (e : Event) : Legible nestingLimit e.toArray := by
  have hitems := List.forall_mem_cons.2 ⟨Legible.string e.kind.name, e.legible_fieldValues⟩
  exact (Legible.array hitems).mono (by decide)

theorem parse?_render (e : Event) : parse? e.render = some e := by
  rw [parse?, render, parse?_compact e.legible_toJson]
  exact e.ofJson?_toJson

/-- **Texts of an event.** An event is read back from its text, and its type, which is the name
the text gives its kind, stands there under `event`. It is read as well from its members in any
order, with others of any other names and any legible values among them, and from the array of the
name of its kind and the values of its fields in order. -/
theorem parse?_texts (e : Event) {extra members : List (String × Json)}
    (hextra : ∀ m ∈ extra, m.1 ∉ kindMember :: e.kind.fieldNames ∧
      Legible (nestingLimit - 1) m.2)
    (hperm : members.Perm ((kindMember, .string e.kind.name) :: e.members ++ extra)) :
    parse? e.render = some e ∧
      (∃ own, Json.parse? e.render = some (.object own) ∧
        own.lookup kindMember = some (.string e.typeName)) ∧
      parse? (Json.object members).compact = some e ∧
      parse? e.toArray.compact = some e := by
  have htype : Json.parse? e.render = some (.object ((kindMember, .string e.typeName) ::
      e.members)) := by
    rw [← e.kind_name]
    exact parse?_compact e.legible_toJson
  refine ⟨e.parse?_render, ⟨_, htype, rfl⟩, ?_, ?_⟩
  · have hlegible : Legible nestingLimit (.object members) := .object fun m hm => by
      rcases List.mem_append.1 (hperm.mem_iff.1 hm) with hm | hm
      · exact (e.legible_members m hm).mono (by decide)
      · exact (hextra m hm).2
    rw [parse?, parse?_compact hlegible]
    exact ofJson?_of_perm (fun m hm => (hextra m hm).1) hperm
  · rw [parse?, parse?_compact e.legible_toArray]
    exact e.ofJson?_toArray

/-- A program load with its arguments. -/
def gameLoaded : Event :=
  .programExec "GAME.EXE" (some "/nosound \"1\"")

/-- A member that is not one of the load. -/
def note : String × Json :=
  ("note", .real "1.5")

theorem parse?_texts_gameLoaded :
    (∀ m ∈ [note], m.1 ∉ kindMember :: gameLoaded.kind.fieldNames ∧
      Legible (nestingLimit - 1) m.2) ∧
    ((kindMember, .string gameLoaded.kind.name) :: gameLoaded.members ++ [note]).reverse.Perm
      ((kindMember, .string gameLoaded.kind.name) :: gameLoaded.members ++ [note]) ∧
    parse? gameLoaded.render = some gameLoaded ∧
      (∃ own, Json.parse? gameLoaded.render = some (.object own) ∧
        own.lookup kindMember = some (.string gameLoaded.typeName)) ∧
      parse? (Json.object ((kindMember, .string gameLoaded.kind.name) :: gameLoaded.members ++
        [note]).reverse).compact = some gameLoaded ∧
      parse? gameLoaded.toArray.compact = some gameLoaded := by
  have hextra : ∀ m ∈ [note], m.1 ∉ kindMember :: gameLoaded.kind.fieldNames ∧
      Legible (nestingLimit - 1) m.2 :=
    List.forall_mem_singleton.2 ⟨by decide, .real rfl⟩
  have hperm := List.reverse_perm
    ((kindMember, .string gameLoaded.kind.name) :: gameLoaded.members ++ [note])
  exact ⟨hextra, hperm, parse?_texts gameLoaded hextra hperm⟩

end Event

end RealModeTrace
