import RealModeTrace.Config.Section
import RealModeTrace.Proofs.Toml.Sections

/-!
# Reading configurations back

The section that a configuration is written as is read back as that configuration, whatever texts
and numbers its options hold.

* `Setting.spells_written`: the value of an option is read as it was written;
* `eq_of_get`: a configuration is known by the values of its options;
* `ofEntries_written`: entries for all options give the configuration that they come from;
* `ofText_toSection`: the section is read back.
-/

namespace RealModeTrace

/-! ### Values of options -/

namespace Setting

/-- The value of a document that stands for a setting. -/
def toToml : Setting → Toml.Value
  | .flag b => .boolean b
  | .text s => .string s
  | .number n => .integer n.toNat

theorem ofToml?_toToml (s : Setting) : ofToml? s.toToml = some s := by
  cases s with
  | flag b => rfl
  | text s => rfl
  | number n =>
    have hn : n.toNat < UInt32.size := n.toNat_lt
    simp [toToml, ofToml?, hn]

theorem withDates?_toToml (s : Setting) : s.toToml.withDates? = some s.toToml := by
  cases s <;> rfl

/-- The value of an option is read as it was written. -/
theorem spells_written (s : Setting) : Toml.Spells s.written.toList s.toToml := by
  cases s with
  | flag b => cases b with
    | false => exact Toml.spells_false
    | true => exact Toml.spells_true
  | text s => exact Toml.spells_quoted s
  | number n => exact Toml.spells_decimal (Nat.lt_trans n.toNat_lt (by decide))

end Setting

namespace Config

/-! ### Options by name -/

theorem bare_sectionName : Toml.Bare sectionName :=
  ⟨by decide, List.all_eq_true.1 rfl⟩

theorem Key.bare_name (key : Key) : Toml.Bare key.name := by
  cases key <;> exact ⟨by decide, List.all_eq_true.1 rfl⟩

theorem Key.nodup_names : (Key.all.map Key.name).Nodup := by
  decide

theorem Key.mem_all (key : Key) : key ∈ Key.all := by
  cases key <;> decide

/-- A configuration is known by the values of its options. -/
theorem eq_of_get {c d : Config} (h : ∀ key, c.get key = d.get key) : c = d := by
  cases c
  cases d
  simp only [mk.injEq]
  exact ⟨Setting.flag.inj (h .enabled), Setting.text.inj (h .logfile),
    Setting.flag.inj (h .instructions), Setting.flag.inj (h .interrupts),
    Setting.flag.inj (h .fileIo), Setting.flag.inj (h .videoModes),
    Setting.flag.inj (h .waitForLoad), Setting.text.inj (h .excludedInterrupts),
    Setting.number.inj (h .dumpBytes), Setting.number.inj (h .sampleRate),
    Setting.number.inj (h .maxLogSizeMb), Setting.flag.inj (h .interactiveOnly)⟩

/-- An option can be set to its value in another configuration, and no other option changes. -/
theorem exists_set? (c d : Config) (key : Key) :
    ∃ e, d.set? key (c.get key) = some e ∧
      ∀ k, e.get k = if k = key then c.get k else d.get k := by
  cases key <;> exact ⟨_, rfl, fun k => by cases k <;> rfl⟩

section Entries

variable {α : Type} {read : α → Option Setting} {write : Setting → α}

theorem foldlM_setNamed (h : ∀ s, read (write s) = some s) (c d : Config) (keys : List Key) :
    ∃ e, (keys.map fun key => (key.name, write (c.get key))).foldlM (setNamed read) d = .ok e ∧
      ∀ k, e.get k = if k ∈ keys then c.get k else d.get k := by
  induction keys generalizing d with
  | nil => exact ⟨d, rfl, fun k => rfl⟩
  | cons key keys ih =>
    obtain ⟨d', hset, hd'⟩ := exists_set? c d key
    obtain ⟨e, hfold, he⟩ := ih d'
    have hnamed : setNamed read d (key.name, write (c.get key)) = .ok d' := by
      simp [setNamed, Key.ofName?_name, h, hset]
    refine ⟨e, ?_, fun k => ?_⟩
    · rw [List.map_cons, List.foldlM_cons, hnamed]
      exact hfold
    · rw [he k, hd' k]
      by_cases hk : k = key <;> by_cases hmem : k ∈ keys <;> simp [hk, hmem]

/-- Entries for all options give the configuration that they come from. -/
theorem ofEntries_written (h : ∀ s, read (write s) = some s) (c : Config) :
    ofEntries read (Key.all.map fun key => (key.name, write (c.get key))) = .ok c := by
  obtain ⟨e, hfold, he⟩ := foldlM_setNamed h c {} Key.all
  rw [ofEntries, hfold]
  exact congrArg Except.ok (eq_of_get fun key => (he key).trans (if_pos key.mem_all))

end Entries

/-! ### Sections -/

theorem toList_line (c : Config) (key : Key) :
    (c.line key).toList = Toml.assignLine key.name (c.get key).written.toList := by
  simp [line, Toml.assignLine]

theorem toList_toSection (c : Config) :
    c.toSection.toList = '[' :: (sectionName.toList ++ ']' :: '\n' ::
      Key.all.flatMap fun key => Toml.assignLine key.name (c.get key).written.toList) := by
  have hlines : (String.join (Key.all.map c.line)).toList =
      Key.all.flatMap fun key => Toml.assignLine key.name (c.get key).written.toList := by
    rw [String.toList_join, List.flatMap_map]
    exact List.flatMap_congr fun key _ => c.toList_line key
  simp [toSection, hlines]

theorem tableOfText?_toSection (c : Config) :
    Toml.tableOfText? c.toSection =
      some [(sectionName, .table (Key.all.map fun key => (key.name, (c.get key).toToml)))] :=
  Toml.tableOfText?_section c.toList_toSection bare_sectionName (fun key _ => key.bare_name)
    Key.nodup_names (fun key _ => (c.get key).spells_written)
    (fun key _ => (c.get key).withDates?_toToml)

/-- **Configurations are read back.** The section that a configuration is written as is read as that
configuration. -/
theorem ofText_toSection (c : Config) : ofText c.toSection = .ok c := by
  have hoptions := ofEntries_written Setting.ofToml?_toToml c
  rw [ofText, tableOfText?_toSection]
  show (ofEntries Setting.ofToml? _).mapError _ = _
  rw [hoptions]
  rfl

end Config

end RealModeTrace
