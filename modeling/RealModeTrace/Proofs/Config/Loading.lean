import RealModeTrace.Proofs.Config.RoundTrip
import RealModeTrace.Proofs.Session.Interrupts
import RealModeTrace.Proofs.Session.LoadDecision
import RealModeTrace.Proofs.Toml.DistinctKeys

/-!
# Loading configurations

A document is a configuration if each key of its section is an option, with a value of the type of
that option. The options that are not given keep their defaults. A date is taken where a text is
asked for, and stands for its spelling.

* `Setting.Written`, `Setting.Read`: the values of a document that a setting is written as, and
  those that are read as it;
* `Config.Gives`: an entry gives an option its value;
* `Config.exists_ofEntries_iff`, `Config.get_of_mem`, `Config.get_of_notMem`: when entries are
  options, and which options they give;
* `Config.ReadsText`, `Config.LoadsFile`, `Setup.RunsOnFile`: what reading a text and loading a file
  say, and what a session does with that;
* `Config.configurations_loaded`: all of it holds of every text, file and session;
* `Config.date_taken_as_text`: a date is taken for a text.
-/

namespace RealModeTrace

/-! ### Values -/

/-- What the value of an option can be. -/
inductive Setting.Kind
  | flag
  | text
  | number
  deriving DecidableEq

/-- The kind of a setting. -/
def Setting.kind : Setting → Kind
  | .flag _ => .flag
  | .text _ => .text
  | .number _ => .number

/-- The type of an option. -/
def Config.Key.kind : Key → Setting.Kind
  | .enabled | .instructions | .interrupts | .fileIo | .videoModes | .waitForLoad
  | .interactiveOnly => .flag
  | .logfile | .excludedInterrupts => .text
  | .dumpBytes | .sampleRate | .maxLogSizeMb => .number

namespace Setting

/-- A setting is written as this value: a boolean, a string, or an integer of thirty-two bits. -/
inductive Written : Toml.Value → Setting → Prop
  | flag (b : Bool) : Written (.boolean b) (.flag b)
  | text (s : String) : Written (.string s) (.text s)
  | number {n : Int} (low : 0 ≤ n) (high : n < UInt32.size) :
    Written (.integer n) (.number (UInt32.ofNat n.toNat))

/-- A value is read as this setting: the setting is written so, or is the spelling of a date. -/
inductive Read : Toml.Value → Setting → Prop
  | written {v : Toml.Value} {s : Setting} (h : Written v s) : Read v s
  | date (spelling : String) : Read (.dateTime spelling) (.text spelling)

theorem ofToml?_eq_some_iff {v : Toml.Value} {s : Setting} : ofToml? v = some s ↔ Read v s := by
  constructor
  · intro h
    cases v with
    | boolean b => exact Option.some.inj h ▸ .written (.flag b)
    | string t => exact Option.some.inj h ▸ .written (.text t)
    | dateTime spelling => exact Option.some.inj h ▸ .date spelling
    | integer n =>
      cases n with
      | ofNat n =>
        rw [ofToml?] at h
        split_ifs at h with hn
        rw [← Option.some.inj h]
        exact .written (.number (Int.natCast_nonneg n) (Int.ofNat_lt.2 hn))
      | negSucc n => cases h
    | _ => cases h
  · rintro (⟨b | s | ⟨low, high⟩⟩ | spelling)
    · rfl
    · rfl
    · obtain ⟨n, rfl⟩ := Int.eq_ofNat_of_zero_le low
      exact if_pos (Int.ofNat_lt.1 high)
    · rfl

end Setting

namespace Config

/-! ### Options of a document -/

/-- An entry gives an option a value of its type. -/
structure Gives (reading : Toml.Value → Setting → Prop) (entry : String × Toml.Value) (key : Key)
    (s : Setting) : Prop where
  name_eq : entry.1 = key.name
  reads : reading entry.2 s
  kind_eq : s.kind = key.kind

theorem Key.name_injective {key other : Key} (h : key.name = other.name) : key = other :=
  Option.some.inj ((ofName?_name key).symm.trans (h ▸ ofName?_name other))

theorem Key.name_of_ofName? {name : String} {key : Key} (h : ofName? name = some key) :
    key.name = name :=
  beq_iff_eq.1 (List.find?_some (p := fun key : Key => key.name == name) h)

/-- An option takes every setting of its type, and no other option changes. -/
theorem exists_set?_of_kind (c : Config) {key : Key} {s : Setting} (hkind : s.kind = key.kind) :
    ∃ d, c.set? key s = some d ∧ ∀ k, d.get k = if k = key then s else c.get k := by
  cases key <;> cases s <;> first
    | exact ⟨_, rfl, fun k => by cases k <;> rfl⟩
    | cases hkind

theorem set?_eq_some_iff {c d : Config} {key : Key} {s : Setting} : c.set? key s = some d ↔
    s.kind = key.kind ∧ ∀ k, d.get k = if k = key then s else c.get k := by
  constructor
  · intro h
    have hkind : s.kind = key.kind := by
      cases key <;> cases s <;> first | rfl | cases h
    obtain ⟨e, he, hget⟩ := c.exists_set?_of_kind hkind
    obtain rfl := Option.some.inj (he.symm.trans h)
    exact ⟨hkind, hget⟩
  · rintro ⟨hkind, hget⟩
    obtain ⟨e, he, hget'⟩ := c.exists_set?_of_kind hkind
    rw [he, eq_of_get fun k => (hget' k).trans (hget k).symm]

variable {entries options : List (String × Toml.Value)} {entry : String × Toml.Value}
variable {c d : Config}

theorem setNamed_eq_ok_iff : setNamed Setting.ofToml? c entry = .ok d ↔ ∃ key s,
    Gives Setting.Read entry key s ∧ ∀ k, d.get k = if k = key then s else c.get k := by
  unfold setNamed
  constructor
  · intro h
    split at h
    · cases h
    · rename_i key hkey
      split at h
      · rename_i c' hc'
        obtain rfl := Except.ok.inj h
        obtain ⟨s, hs, hset⟩ := Option.bind_eq_some_iff.1 hc'
        obtain ⟨hkind, hget⟩ := set?_eq_some_iff.1 hset
        exact ⟨key, s, ⟨(Key.name_of_ofName? hkey).symm, Setting.ofToml?_eq_some_iff.1 hs, hkind⟩,
          hget⟩
      · cases h
  · rintro ⟨key, s, ⟨hname, hreads, hkind⟩, hget⟩
    have hset : c.set? key s = some d := set?_eq_some_iff.2 ⟨hkind, hget⟩
    have hread := Setting.ofToml?_eq_some_iff.2 hreads
    simp only [hname, Key.ofName?_name, hread, Option.bind_some, hset]

/-- Entries can be set one after another if each of them gives an option its value. -/
theorem exists_foldlM_setNamed_iff : (∃ d, entries.foldlM (setNamed Setting.ofToml?) c = .ok d) ↔
    ∀ entry ∈ entries, ∃ key s, Gives Setting.Read entry key s := by
  induction entries generalizing c with
  | nil => exact ⟨fun _ => nofun, fun _ => ⟨c, rfl⟩⟩
  | cons entry entries ih =>
    rw [List.forall_mem_cons, List.foldlM_cons]
    constructor
    · rintro ⟨d, h⟩
      rcases hset : setNamed Setting.ofToml? c entry with problem | e
      · rw [hset] at h
        cases h
      · obtain ⟨key, s, hgives, -⟩ := setNamed_eq_ok_iff.1 hset
        rw [hset] at h
        exact ⟨⟨key, s, hgives⟩, ih.1 ⟨d, h⟩⟩
    · rintro ⟨⟨key, s, hgives⟩, hrest⟩
      obtain ⟨e, -, hget⟩ := c.exists_set?_of_kind hgives.kind_eq
      rw [setNamed_eq_ok_iff.2 ⟨key, s, hgives, hget⟩]
      exact ih.2 hrest

/-- Options that no entry names stay as they are. -/
theorem get_foldlM_of_notMem (h : entries.foldlM (setNamed Setting.ofToml?) c = .ok d) {key : Key}
    (hkey : key.name ∉ entries.map Prod.fst) : d.get key = c.get key := by
  induction entries generalizing c with
  | nil => rw [← Except.ok.inj h]
  | cons entry entries ih =>
    rw [List.map_cons, List.mem_cons, not_or] at hkey
    rw [List.foldlM_cons] at h
    rcases hset : setNamed Setting.ofToml? c entry with problem | e <;> rw [hset] at h
    · cases h
    · obtain ⟨other, s, hgives, hget⟩ := setNamed_eq_ok_iff.1 hset
      have hother : key ≠ other := fun heq => hkey.1 (heq ▸ hgives.name_eq.symm)
      rw [ih h hkey.2, hget, if_neg hother]

/-- Among entries of distinct keys, each gives its option the value that the option has in the
end. -/
theorem get_foldlM_of_mem (hnodup : (entries.map Prod.fst).Nodup)
    (h : entries.foldlM (setNamed Setting.ofToml?) c = .ok d) (hmem : entry ∈ entries) {key : Key}
    {s : Setting} (hgives : Gives Setting.Read entry key s) : d.get key = s := by
  induction entries generalizing c with
  | nil => cases hmem
  | cons first entries ih =>
    rw [List.map_cons, List.nodup_cons] at hnodup
    rw [List.foldlM_cons] at h
    rcases hset : setNamed Setting.ofToml? c first with problem | e <;> rw [hset] at h
    · cases h
    · rcases List.mem_cons.1 hmem with rfl | hmem
      · have hrest : key.name ∉ entries.map Prod.fst := hgives.name_eq ▸ hnodup.1
        obtain ⟨key', s', hgives', hget⟩ := setNamed_eq_ok_iff.1 hset
        obtain rfl := Key.name_injective (hgives.name_eq.symm.trans hgives'.name_eq)
        have hs := Setting.ofToml?_eq_some_iff.2 hgives.reads
        rw [Setting.ofToml?_eq_some_iff.2 hgives'.reads] at hs
        rw [get_foldlM_of_notMem h hrest, hget, if_pos rfl, Option.some.inj hs]
      · exact ih hnodup.2 h hmem

/-! ### Documents -/

/-- The options of a document: the entries of its section, or all its entries if it has none. -/
inductive Offers (document : List (String × Toml.Value)) : List (String × Toml.Value) → Prop
  | ofSection {options : List (String × Toml.Value)}
    (h : (sectionName, .table options) ∈ document) : Offers document options
  | whole (h : sectionName ∉ document.map Prod.fst) : Offers document document

/-- The section of a document is no table. -/
def Spoiled (document : List (String × Toml.Value)) : Prop :=
  ∃ v, (sectionName, v) ∈ document ∧ ∀ options, v ≠ .table options

variable {document : List (String × Toml.Value)}

theorem value_unique (hnodup : (document.map Prod.fst).Nodup) {name : String} {v w : Toml.Value}
    (hv : (name, v) ∈ document) (hw : (name, w) ∈ document) : v = w :=
  congrArg Prod.snd (List.inj_on_of_nodup_map hnodup hv hw rfl)

/-- A document offers options, or its section is no table. -/
theorem optionTable_cases (document : List (String × Toml.Value)) :
    (∃ options, optionTable document = .ok options ∧ Offers document options) ∨
      optionTable document = .error .sectionNotTable ∧ Spoiled document := by
  unfold optionTable
  rcases hlookup : document.lookup sectionName with _ | v
  · refine Or.inl ⟨document, rfl, .whole fun hmem => ?_⟩
    obtain ⟨entry, hentry, hname⟩ := List.mem_map.1 hmem
    simpa [hname] using List.lookup_eq_none_iff.1 hlookup entry hentry
  · obtain ⟨before, after, hsplit, -⟩ := List.lookup_eq_some_iff.1 hlookup
    have hmem : (sectionName, v) ∈ document := by
      rw [hsplit]
      exact List.mem_append_right _ List.mem_cons_self
    cases v with
    | table inner => exact Or.inl ⟨inner, rfl, .ofSection hmem⟩
    | _ => exact Or.inr ⟨rfl, _, hmem, nofun⟩

/-- A document with distinct keys offers one list of options at most. -/
theorem Offers.unique {other : List (String × Toml.Value)}
    (hnodup : (document.map Prod.fst).Nodup) (h : Offers document options)
    (h' : Offers document other) : options = other := by
  cases h with
  | ofSection hmem =>
    cases h' with
    | ofSection hmem' => exact Toml.Value.table.inj (value_unique hnodup hmem hmem')
    | whole hnot => exact absurd (List.mem_map_of_mem hmem) hnot
  | whole hnot =>
    cases h' with
    | ofSection hmem' => exact absurd (List.mem_map_of_mem hmem') hnot
    | whole _ => rfl

theorem Offers.not_spoiled (hnodup : (document.map Prod.fst).Nodup) (h : Offers document options) :
    ¬ Spoiled document := by
  rintro ⟨v, hmem, hnot⟩
  cases h with
  | ofSection hmem' => exact hnot options (value_unique hnodup hmem hmem')
  | whole hwhole => exact hwhole (List.mem_map_of_mem hmem)

theorem optionTable_of_offers (hnodup : (document.map Prod.fst).Nodup)
    (h : Offers document options) : optionTable document = .ok options := by
  rcases optionTable_cases document with ⟨other, hok, hother⟩ | ⟨-, hspoiled⟩
  · rw [hok, hother.unique hnodup h]
  · exact absurd hspoiled (h.not_spoiled hnodup)

theorem optionTable_of_spoiled (hnodup : (document.map Prod.fst).Nodup) (h : Spoiled document) :
    optionTable document = .error .sectionNotTable := by
  rcases optionTable_cases document with ⟨options, -, hoffers⟩ | ⟨herror, -⟩
  · exact absurd h (hoffers.not_spoiled hnodup)
  · exact herror

/-- The keys of a document and of its options are distinct. -/
theorem nodup_of_tableOfText? {text : String} (h : Toml.tableOfText? text = some document) :
    (document.map Prod.fst).Nodup ∧
      ∀ options, Offers document options → (options.map Prod.fst).Nodup := by
  cases Toml.keyed_tableOfText? h with
  | table hnodup heach =>
    refine ⟨hnodup, fun options hoffers => ?_⟩
    cases hoffers with
    | ofSection hmem =>
      cases heach _ hmem with
      | table hinner _ => exact hinner
    | whole _ => exact hnodup

theorem ofText_of_offers {text : String} (h : Toml.tableOfText? text = some document)
    (hoffers : Offers document options) :
    ofText text = (ofEntries Setting.ofToml? options).mapError .document := by
  rw [ofText, h]
  show (optionTable document >>= _) = _
  rw [optionTable_of_offers (nodup_of_tableOfText? h).1 hoffers]
  rfl

theorem ofText_eq_ok_iff {text : String} (h : Toml.tableOfText? text = some document)
    (hoffers : Offers document options) : ofText text = .ok c ↔
      options.foldlM (setNamed Setting.ofToml?) {} = .ok c := by
  rw [ofText_of_offers h hoffers, ofEntries]
  rcases options.foldlM (setNamed Setting.ofToml?) {} with problem | c'
  · constructor <;> intro h <;> cases h
  · exact ⟨fun h => congrArg _ (Except.ok.inj h), fun h => congrArg _ (Except.ok.inj h)⟩

/-! ### Texts and files -/

/-- What reading a text gives. -/
structure ReadsText (text : String) : Prop where
  /-- A text that is no document is no configuration. -/
  malformed : Toml.tableOfText? text = none → ofText text = .error (.document .malformed)
  /-- A document whose section is no table is none either. -/
  spoiled : ∀ document, Toml.tableOfText? text = some document → Spoiled document →
    ofText text = .error .sectionNotTable
  /-- Any other document offers options: those of its section, all else left aside, or itself. -/
  offered : ∀ document, Toml.tableOfText? text = some document → ¬ Spoiled document →
    ∃ options, Offers document options
  /-- Each key stands once in a document, and among the options. -/
  distinct : ∀ document, Toml.tableOfText? text = some document →
    (document.map Prod.fst).Nodup ∧
      ∀ options, Offers document options → (options.map Prod.fst).Nodup
  /-- It is a configuration exactly if each entry there gives an option a value of its type. -/
  accepted_iff : ∀ document options, Toml.tableOfText? text = some document →
    Offers document options →
    ((∃ c, ofText text = .ok c) ↔ ∀ entry ∈ options, ∃ key s, Gives Setting.Read entry key s)
  /-- Otherwise the text is refused as a document. -/
  refused : ∀ document options, Toml.tableOfText? text = some document → Offers document options →
    (¬ ∀ entry ∈ options, ∃ key s, Gives Setting.Read entry key s) →
    ∃ problem, ofText text = .error (.document problem)
  /-- The configuration has the values that are given. -/
  given : ∀ document options c, Toml.tableOfText? text = some document → Offers document options →
    ofText text = .ok c → ∀ entry ∈ options, ∀ key s, Gives Setting.Read entry key s →
    c.get key = s
  /-- Its other options have their defaults. -/
  absent : ∀ document options c, Toml.tableOfText? text = some document → Offers document options →
    ofText text = .ok c → ∀ key : Key, key.name ∉ options.map Prod.fst →
    c.get key = get {} key

theorem readsText (text : String) : ReadsText text where
  malformed h := by rw [ofText, h]
  spoiled document h hspoiled := by
    rw [ofText, h]
    show (optionTable document >>= _) = _
    rw [optionTable_of_spoiled (nodup_of_tableOfText? h).1 hspoiled]
    rfl
  offered document _ hspoiled := by
    rcases optionTable_cases document with ⟨options, -, hoffers⟩ | ⟨-, h⟩
    · exact ⟨options, hoffers⟩
    · exact absurd h hspoiled
  distinct _ h := nodup_of_tableOfText? h
  accepted_iff document options h hoffers := by
    simp only [ofText_eq_ok_iff h hoffers]
    exact exists_foldlM_setNamed_iff
  refused document options h hoffers hnot := by
    rw [ofText_of_offers h hoffers, ofEntries]
    rcases hfold : options.foldlM (setNamed Setting.ofToml?) {} with problem | c
    · exact ⟨problem, rfl⟩
    · exact absurd (exists_foldlM_setNamed_iff.1 ⟨c, hfold⟩) hnot
  given document options c h hoffers hok entry hmem key s hgives :=
    get_foldlM_of_mem ((nodup_of_tableOfText? h).2 options hoffers)
      ((ofText_eq_ok_iff h hoffers).1 hok) hmem hgives
  absent document options c h hoffers hok key hkey :=
    get_foldlM_of_notMem ((ofText_eq_ok_iff h hoffers).1 hok) hkey

/-- Options that are valid are as they are sanitized. -/
theorem sanitized_of_validate (h : c.validate = .ok ()) : c.sanitized = c := by
  obtain ⟨hdump, hrate⟩ := inRange_of_validate h
  have hmin : min c.dumpBytes dumpCeiling = c.dumpBytes := by
    rw [← UInt32.toNat_inj, UInt32.toNat_min]
    exact Nat.min_eq_left (UInt32.le_iff_toNat_le.1 hdump)
  have hmax : max c.sampleRate 1 = c.sampleRate := by
    rw [← UInt32.toNat_inj, UInt32.toNat_max]
    exact Nat.max_eq_left (UInt32.le_iff_toNat_le.1 hrate)
  rw [sanitized, hmin, hmax]

/-- What loading a file gives. -/
structure LoadsFile (files : FileTree) (path : String) : Prop where
  /-- First the file is read, … -/
  unreadable : ∀ cause, files.readText path = .error cause →
    load files path = .error (.io path cause)
  /-- … then its text is, … -/
  unread : ∀ text e, files.readText path = .ok text → ofText text = .error e →
    load files path = .error e
  /-- … and then the options are validated. -/
  invalid : ∀ text c e, files.readText path = .ok text → ofText text = .ok c →
    c.validate = .error e → load files path = .error e
  ok_iff : ∀ text, files.readText path = .ok text → ∀ c, load files path = .ok c ↔
    ofText text = .ok c ∧ c.validate = .ok ()
  /-- There is nothing to sanitize in options that were loaded. -/
  sanitized : ∀ c, load files path = .ok c → c.sanitized = c

theorem load_of_readText {files : FileTree} {path text : String}
    (h : files.readText path = .ok text) :
    load files path = ofText text >>= fun c => c.validate >>= fun _ => pure c := by
  rw [load, h]
  rfl

theorem load_eq_ok_iff {files : FileTree} {path text : String}
    (h : files.readText path = .ok text) : load files path = .ok c ↔
      ofText text = .ok c ∧ c.validate = .ok () := by
  rw [load_of_readText h]
  rcases ofText text with e | d
  · exact ⟨nofun, fun h => nomatch h.1⟩
  · constructor
    · intro h
      rcases hvalid : d.validate with e | _ <;> simp only [bind, Except.bind, hvalid] at h
      · cases h
      · obtain rfl := Except.ok.inj h
        exact ⟨rfl, hvalid⟩
    · rintro ⟨h, hvalid⟩
      obtain rfl := Except.ok.inj h
      simp only [bind, Except.bind, hvalid]
      rfl

theorem loadsFile (files : FileTree) (path : String) : LoadsFile files path where
  unreadable cause h := by
    rw [load, h]
    rfl
  unread text e h hread := by
    rw [load_of_readText h, hread]
    rfl
  invalid text c e h hread hvalid := by
    rw [load_of_readText h, hread]
    show (c.validate >>= _) = _
    rw [hvalid]
    rfl
  ok_iff text h c := load_eq_ok_iff h
  sanitized c hload := by
    rcases h : files.readText path with cause | text
    · rw [load, h] at hload
      cases hload
    · exact sanitized_of_validate ((load_eq_ok_iff h).1 hload).2

/-! ### Sessions -/

/-- What a session does that is started from a file. -/
structure RunsOnFile (world : World) (path : String) (now : Duration) : Prop where
  /-- It is started with the options that were loaded. -/
  started_iff : ∀ result, Session.ofConfigFile world path now = .ok result ↔
    ∃ c, load world.files path = .ok c ∧ result = Setup.start { config := c } now world
  failed_iff : ∀ error, Session.ofConfigFile world path now = .error error ↔
    ∃ e, load world.files path = .error e ∧ error = .config e
  /-- Those are the options it runs on, until it is given others. -/
  config_eq : ∀ c, load world.files path = .ok c → ∀ h : History,
    (∀ entry ∈ h, entry.2.newConfig? = none) →
    (Setup.after { config := c } now world h).config = c

theorem runsOnFile (world : World) (path : String) (now : Duration) :
    RunsOnFile world path now where
  started_iff result := by
    unfold Session.ofConfigFile
    rcases load world.files path with e | c
    · exact ⟨nofun, fun ⟨_, h, _⟩ => nomatch h⟩
    · exact ⟨fun h => ⟨c, rfl, (Except.ok.inj h).symm⟩,
        fun ⟨d, hd, h⟩ => by rw [h, ← Except.ok.inj hd]; rfl⟩
  failed_iff error := by
    unfold Session.ofConfigFile
    rcases load world.files path with e | c
    · exact ⟨fun h => ⟨e, rfl, (Except.error.inj h).symm⟩,
        fun ⟨d, hd, h⟩ => by rw [h, ← Except.error.inj hd]; rfl⟩
    · exact ⟨nofun, fun ⟨_, h, _⟩ => nomatch h⟩
  config_eq c hload h hsame := by
    rw [Setup.after_config, Setup.optionsAfter_of_forall _ hsame]
    exact (loadsFile world.files path).sanitized c hload

/-- What loading a configuration means, for texts, for a file, and for a session that is started
from the file. -/
structure Loads (world : World) (path : String) (now : Duration) : Prop where
  texts : ∀ text, ReadsText text
  file : LoadsFile world.files path
  session : RunsOnFile world path now

/-- **Configurations are loaded.** A text that is a document with a section that is no table is
refused for that. Any other document is a configuration exactly if each key of its section, or of
itself if there is none, is the name of an option, with a value of the type of that option, where a
date counts as the text of its spelling; it has the given values, and the defaults of all other
options. Every other text is refused as a document. A file that can be read is loaded exactly if its
text is a configuration and valid. Nothing is left to sanitize then, so that a session started from
the file runs on the options that are written there. -/
theorem configurations_loaded (world : World) (path : String) (now : Duration) :
    Loads world path now where
  texts := readsText
  file := loadsFile world.files path
  session := runsOnFile world path now

/-- The entry of a document that has just one, with a date: its key, and the spelling. -/
def onlyDate? : List (String × Toml.Value) → Option (String × String)
  | [(name, .dateTime spelling)] => some (name, spelling)
  | _ => none

theorem eq_of_onlyDate? {name spelling : String} (h : onlyDate? document = some (name, spelling)) :
    document = [(name, .dateTime spelling)] := by
  unfold onlyDate? at h
  split at h
  · obtain ⟨rfl, rfl⟩ := Prod.mk.inj (Option.some.inj h)
    rfl
  · cases h

/-- **A date is taken for a text.** A document that gives a date as the name of the log is a
configuration, although the value is no string: the log is named as the date is spelled. -/
theorem date_taken_as_text :
    Toml.tableOfText? "logfile = 1979-05-27" = some [("logfile", .dateTime "1979-05-27")] ∧
    Offers [("logfile", .dateTime "1979-05-27")] [("logfile", .dateTime "1979-05-27")] ∧
    (¬ ∃ key s, Gives Setting.Written ("logfile", .dateTime "1979-05-27") key s) ∧
    ofText "logfile = 1979-05-27" = .ok { logfile := "1979-05-27" } := by
  have hread : (Toml.tableOfText? "logfile = 1979-05-27").bind onlyDate? =
      some ("logfile", "1979-05-27") := by
    decide +kernel
  have htable : Toml.tableOfText? "logfile = 1979-05-27" =
      some [("logfile", .dateTime "1979-05-27")] := by
    obtain ⟨document, hdocument, hdate⟩ := Option.bind_eq_some_iff.1 hread
    rw [hdocument, eq_of_onlyDate? hdate]
  refine ⟨htable, .whole (by decide), ?_, ?_⟩
  · rintro ⟨key, s, -, hwritten, -⟩
    cases hwritten
  · rw [ofText, htable]
    rfl

end Config

end RealModeTrace
