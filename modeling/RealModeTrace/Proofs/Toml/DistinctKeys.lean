import Mathlib.Data.List.Nodup
import Mathlib.Data.Option.Basic
import RealModeTrace.Toml.Document

/-!
# Keys of tables

Whatever statements a document is made of, each table of what it says holds each key once: those
with headers, those made by dotted keys, inline tables and the tables of arrays.

* `Value.Keyed`, `Item.Keyed`, `Entries.Keyed`: each table within holds each key once;
* `Entries.Keyed.alter`: so it is after an entry was replaced or added; the other changes of tables
  follow (`Entries.Keyed.assign`, `.within`, `.openTable`, `.openArrayTable`);
* `keyed_readValue`, `keyed_readStatements`: inline tables are such tables;
* `keyed_tableOfText?`: the table of a document is.
-/

namespace RealModeTrace.Toml

/-! ### Tables in which each key stands once -/

/-- Each table within a value holds each key once. -/
inductive Value.Keyed : Value → Prop
  | string (s : String) : Keyed (.string s)
  | integer (n : Int) : Keyed (.integer n)
  | float : Keyed .float
  | boolean (b : Bool) : Keyed (.boolean b)
  | dateTime (spelling : String) : Keyed (.dateTime spelling)
  | array {items : List Value} (each : ∀ v ∈ items, Keyed v) : Keyed (.array items)
  | table {entries : List (String × Value)} (nodup : (entries.map Prod.fst).Nodup)
    (each : ∀ entry ∈ entries, Keyed entry.2) : Keyed (.table entries)

/-- Each table within an item under construction holds each key once. -/
inductive Item.Keyed : Item → Prop
  | value {v : Value} (h : v.Keyed) : Keyed (.value v)
  | table (origin : Origin) {entries : List (String × Item)} (nodup : (entries.map Prod.fst).Nodup)
    (each : ∀ entry ∈ entries, Keyed entry.2) : Keyed (.table origin entries)
  | tables {newestFirst : List (List (String × Item))}
    (nodup : ∀ entries ∈ newestFirst, (entries.map Prod.fst).Nodup)
    (each : ∀ entries ∈ newestFirst, ∀ entry ∈ entries, Keyed entry.2) :
    Keyed (.tables newestFirst)

/-- A table under construction holds each key once, and so does each table within. -/
structure Entries.Keyed (entries : Entries) : Prop where
  nodup : (entries.map Prod.fst).Nodup
  each : ∀ entry ∈ entries, entry.2.Keyed

theorem Entries.keyed_nil : Entries.Keyed [] := ⟨List.nodup_nil, nofun⟩

theorem Entries.Keyed.table {entries : Entries} (h : entries.Keyed) (origin : Origin) :
    (Item.table origin entries).Keyed :=
  .table origin h.nodup h.each

theorem Item.Keyed.entries {origin : Origin} {entries : Entries}
    (h : (Item.table origin entries).Keyed) : entries.Keyed := by
  cases h with
  | table _ hnodup heach => exact ⟨hnodup, heach⟩

theorem Item.keyed_tables_iff {tables : List Entries} :
    (Item.tables tables).Keyed ↔ ∀ entries ∈ tables, entries.Keyed := by
  constructor
  · intro h entries hmem
    cases h with
    | tables hnodup heach => exact ⟨hnodup entries hmem, heach entries hmem⟩
  · exact fun h => .tables (fun entries hmem => (h entries hmem).nodup)
      fun entries hmem => (h entries hmem).each

/-- The tables of an array, of which the newest was changed. -/
theorem Item.Keyed.newest {newest changed : Entries} {older : List Entries}
    (h : (Item.tables (newest :: older)).Keyed) (hchanged : newest.Keyed → changed.Keyed) :
    (Item.tables (changed :: older)).Keyed := by
  obtain ⟨hnewest, holder⟩ := List.forall_mem_cons.1 (keyed_tables_iff.1 h)
  exact keyed_tables_iff.2 (List.forall_mem_cons.2 ⟨hchanged hnewest, holder⟩)

/-! ### Changes of tables -/

/-- What keeps a property at each step keeps it along a list. -/
theorem foldlM_keeps {α β : Type} {motive : α → Prop} {f : α → β → Option α} {bs : List β}
    {a a' : α} (step : ∀ a, motive a → ∀ b ∈ bs, ∀ a', f a b = some a' → motive a')
    (start : motive a) (h : bs.foldlM f a = some a') : motive a' := by
  induction bs generalizing a with
  | nil => exact Option.some.inj h ▸ start
  | cons b bs ih =>
    obtain ⟨next, hnext, hrest⟩ := Option.bind_eq_some_iff.1 (List.foldlM_cons.symm.trans h)
    exact ih (fun a ha b hb => step a ha b (List.mem_cons_of_mem _ hb))
      (step a start b List.mem_cons_self next hnext) hrest

/-- The change of an entry, of which there may be none before, gives an item of distinct keys. -/
def KeepsKeyed (f : Option Item → Option Item) : Prop :=
  ∀ present, (∀ item ∈ present, item.Keyed) → ∀ item ∈ f present, item.Keyed

namespace Entries

variable {entries changed : Entries} {key : String}

/-- The keys stay, and a new one comes last. -/
theorem map_fst_alter {f : Option Item → Option Item} (h : entries.alter key f = some changed) :
    changed.map Prod.fst = if key ∈ entries.map Prod.fst then entries.map Prod.fst
      else entries.map Prod.fst ++ [key] := by
  induction entries generalizing changed with
  | nil =>
    obtain ⟨item, -, rfl⟩ := Option.map_eq_some_iff.1 h
    rfl
  | cons entry entries ih =>
    obtain ⟨k, present⟩ := entry
    rw [alter] at h
    by_cases hk : k = key
    · rw [if_pos hk] at h
      obtain ⟨item, -, rfl⟩ := Option.map_eq_some_iff.1 h
      rw [if_pos (by rw [List.map_cons, hk]; exact List.mem_cons_self)]
      rfl
    · rw [if_neg hk] at h
      obtain ⟨rest, hrest, rfl⟩ := Option.map_eq_some_iff.1 h
      have hmem : key ∈ ((k, present) :: entries).map Prod.fst ↔ key ∈ entries.map Prod.fst := by
        rw [List.map_cons, List.mem_cons, or_iff_right (Ne.symm hk)]
      rw [List.map_cons, ih hrest]
      split_ifs with hrest hall hall
      · rfl
      · exact absurd (hmem.2 hrest) hall
      · exact absurd (hmem.1 hall) hrest
      · rfl

theorem each_alter {f : Option Item → Option Item} (hf : KeepsKeyed f)
    (heach : ∀ entry ∈ entries, entry.2.Keyed) (h : entries.alter key f = some changed) :
    ∀ entry ∈ changed, entry.2.Keyed := by
  induction entries generalizing changed with
  | nil =>
    obtain ⟨item, hitem, rfl⟩ := Option.map_eq_some_iff.1 h
    exact List.forall_mem_singleton.2 (hf none nofun item hitem)
  | cons entry entries ih =>
    obtain ⟨k, present⟩ := entry
    obtain ⟨hpresent, hrest⟩ := List.forall_mem_cons.1 heach
    rw [alter] at h
    by_cases hk : k = key
    · rw [if_pos hk] at h
      obtain ⟨item, hitem, rfl⟩ := Option.map_eq_some_iff.1 h
      refine List.forall_mem_cons.2 ⟨hf (some present) ?_ item hitem, hrest⟩
      exact fun item hmem => Option.mem_some_iff.1 hmem ▸ hpresent
    · rw [if_neg hk] at h
      obtain ⟨rest, hrest', rfl⟩ := Option.map_eq_some_iff.1 h
      exact List.forall_mem_cons.2 ⟨hpresent, ih hrest hrest'⟩

/-- Replacing or adding an entry keeps the keys distinct. -/
theorem Keyed.alter {f : Option Item → Option Item} (hf : KeepsKeyed f) (hentries : entries.Keyed)
    (h : entries.alter key f = some changed) : changed.Keyed where
  nodup := by
    rw [map_fst_alter h]
    split_ifs with hmem
    · exact hentries.nodup
    · rw [← List.concat_eq_append]
      exact hentries.nodup.concat hmem
  each := each_alter hf hentries.each h

/-- Assigning a value to a dotted key keeps the keys distinct. -/
theorem Keyed.assign {path : List String} {value : Value} (hvalue : value.Keyed)
    (hentries : entries.Keyed) (h : entries.assign path value = some changed) : changed.Keyed := by
  induction path generalizing entries changed with
  | nil => cases h
  | cons key path ih =>
    cases path with
    | nil =>
      refine hentries.alter (fun present hpresent item hitem => ?_) h
      rcases present with _ | present
      · exact Option.some.inj hitem ▸ .value hvalue
      · cases hitem
    | cons next rest =>
      refine hentries.alter (fun present hpresent item hitem => ?_) h
      rcases present with _ | (present | ⟨origin, inner⟩ | (_ | ⟨newest, older⟩))
      · obtain ⟨inner, hinner, rfl⟩ := Option.map_eq_some_iff.1 hitem
        exact (ih keyed_nil hinner).table .dotted
      · cases hitem
      · dsimp only at hitem
        split_ifs at hitem
        · cases hitem
        · obtain ⟨inner', hinner, rfl⟩ := Option.map_eq_some_iff.1 hitem
          exact (ih (hpresent _ rfl).entries hinner).table origin
      · cases hitem
      · dsimp only at hitem
        split_ifs at hitem
        · cases hitem
        · obtain ⟨newest', hnewest, rfl⟩ := Option.map_eq_some_iff.1 hitem
          exact (hpresent _ rfl).newest fun hkeyed => ih hkeyed hnewest

/-- Work on the table of a header keeps the keys distinct if it does so in that table. -/
theorem Keyed.within {f : Entries → Option Entries} {path : List String}
    (hf : ∀ {entries changed}, Keyed entries → f entries = some changed → Keyed changed)
    (hentries : entries.Keyed) (h : entries.within f path = some changed) : changed.Keyed := by
  induction path generalizing entries changed with
  | nil => exact hf hentries h
  | cons key rest ih =>
    refine hentries.alter (fun present hpresent item hitem => ?_) h
    rcases present with _ | (present | ⟨origin, inner⟩ | (_ | ⟨newest, older⟩))
    · obtain ⟨inner, hinner, rfl⟩ := Option.map_eq_some_iff.1 hitem
      exact (ih keyed_nil hinner).table .implied
    · cases hitem
    · obtain ⟨inner', hinner, rfl⟩ := Option.map_eq_some_iff.1 hitem
      exact (ih (hpresent _ rfl).entries hinner).table origin
    · cases hitem
    · obtain ⟨newest', hnewest, rfl⟩ := Option.map_eq_some_iff.1 hitem
      exact (hpresent _ rfl).newest fun hkeyed => ih hkeyed hnewest

/-- An entry that comes last, under a key that no other has. -/
theorem Keyed.concat (hentries : entries.Keyed) (hnew : key ∉ entries.map Prod.fst) {item : Item}
    (hitem : item.Keyed) : Keyed (entries ++ [(key, item)]) where
  nodup := by
    rw [List.map_append, List.map_singleton, ← List.concat_eq_append]
    exact hentries.nodup.concat hnew
  each := List.forall_mem_append.2 ⟨hentries.each, List.forall_mem_singleton.2 hitem⟩

theorem Keyed.filter (hentries : entries.Keyed) (p : String × Item → Bool) :
    Keyed (entries.filter p) where
  nodup := (List.filter_sublist.map Prod.fst).nodup hentries.nodup
  each entry hmem := hentries.each entry (List.mem_of_mem_filter hmem)

/-- Opening the table of a header keeps the keys distinct. -/
theorem Keyed.openTable (hentries : entries.Keyed) (h : entries.openTable key = some changed) :
    changed.Keyed := by
  unfold Entries.openTable at h
  split at h
  · rename_i hlookup
    obtain rfl := Option.some.inj h
    refine hentries.concat (fun hmem => ?_) (keyed_nil.table .headed)
    obtain ⟨entry, hentry, rfl⟩ := List.mem_map.1 hmem
    simpa using List.lookup_eq_none_iff.1 hlookup entry hentry
  · rename_i inner hlookup
    obtain rfl := Option.some.inj h
    obtain ⟨before, after, hsplit, -⟩ := List.lookup_eq_some_iff.1 hlookup
    have hmem : (key, Item.table .implied inner) ∈ entries := by
      rw [hsplit]
      exact List.mem_append_right _ List.mem_cons_self
    refine (hentries.filter _).concat (fun hkey => ?_)
      ((hentries.each _ hmem).entries.table .headed)
    obtain ⟨entry, hentry, rfl⟩ := List.mem_map.1 hkey
    simpa using (List.mem_filter.1 hentry).2
  · cases h

/-- Adding a table to the array of a header keeps the keys distinct. -/
theorem Keyed.openArrayTable (hentries : entries.Keyed)
    (h : entries.openArrayTable key = some changed) : changed.Keyed := by
  refine hentries.alter (fun present hpresent item hitem => ?_) h
  rcases present with _ | (present | ⟨origin, inner⟩ | tables)
  · obtain rfl := Option.some.inj hitem
    exact Item.keyed_tables_iff.2 (List.forall_mem_singleton.2 keyed_nil)
  · cases hitem
  · cases hitem
  · obtain rfl := Option.some.inj hitem
    exact Item.keyed_tables_iff.2
      (List.forall_mem_cons.2 ⟨keyed_nil, Item.keyed_tables_iff.1 (hpresent _ rfl)⟩)

end Entries

/-! ### Values -/

theorem entriesToValues_eq (entries : Entries) :
    entriesToValues entries = entries.map fun entry => (entry.1, entry.2.toValue) := by
  induction entries with
  | nil => rfl
  | cons entry entries ih => rw [entriesToValues, ih, List.map_cons]

theorem tablesToValues_eq (tables : List Entries) :
    tablesToValues tables = tables.map fun entries => .table (entriesToValues entries) := by
  induction tables with
  | nil => rfl
  | cons entries tables ih => rw [tablesToValues, ih, List.map_cons]

theorem map_fst_entriesToValues (entries : Entries) :
    (entriesToValues entries).map Prod.fst = entries.map Prod.fst := by
  rw [entriesToValues_eq, List.map_map]
  rfl

/-- The table of entries whose values are known to hold each key once. -/
theorem keyed_entriesToValues {entries : Entries} (hnodup : (entries.map Prod.fst).Nodup)
    (heach : ∀ entry ∈ entries, entry.2.toValue.Keyed) :
    (Value.table (entriesToValues entries)).Keyed := by
  refine .table (by rwa [map_fst_entriesToValues]) fun entry hentry => ?_
  rw [entriesToValues_eq] at hentry
  obtain ⟨item, hitem, rfl⟩ := List.mem_map.1 hentry
  exact heach item hitem

theorem Item.Keyed.toValue {item : Item} (h : item.Keyed) : item.toValue.Keyed := by
  induction h with
  | value h =>
    rw [Item.toValue]
    exact h
  | table origin hnodup heach ih =>
    rw [Item.toValue]
    exact keyed_entriesToValues hnodup ih
  | tables hnodup heach ih =>
    rw [Item.toValue, tablesToValues_eq]
    refine .array fun v hv => ?_
    obtain ⟨entries, hentries, rfl⟩ := List.mem_map.1 (List.mem_reverse.1 hv)
    exact keyed_entriesToValues (hnodup entries hentries) (ih entries hentries)

theorem Entries.Keyed.toValue {entries : Entries} (h : entries.Keyed) :
    (Value.table (entriesToValues entries)).Keyed :=
  keyed_entriesToValues h.nodup fun entry hentry => (h.each entry hentry).toValue

theorem keyed_inlineTable? {pairs : List (List String × Value)} {v : Value}
    (hpairs : ∀ pair ∈ pairs, pair.2.Keyed) (h : inlineTable? pairs = some v) : v.Keyed := by
  obtain ⟨entries, hfold, rfl⟩ := Option.map_eq_some_iff.1 h
  refine Entries.Keyed.toValue (foldlM_keeps ?_ Entries.keyed_nil hfold)
  exact fun before hbefore pair hpair after hassign => hbefore.assign (hpairs pair hpair) hassign

/-! ### Reading values -/

/-- A reader gives values in which each table holds each key once. -/
def KeyedReader (item : ValueReader) : Prop :=
  ∀ {cs v r}, item cs = some (v, r) → v.Keyed

theorem keyed_readBased {base : Nat} : KeyedReader (readBased base) := fun {cs v r} h => by
  obtain ⟨⟨ds, rest⟩, -, h⟩ := Option.bind_eq_some_iff.1 h
  dsimp only at h
  split_ifs at h
  obtain ⟨rfl, -⟩ := Prod.mk.inj (Option.some.inj h)
  exact .integer _

theorem keyed_readInteger : KeyedReader readInteger := fun {cs v r} h => by
  unfold readInteger at h
  split at h
  · exact keyed_readBased h
  · exact keyed_readBased h
  · exact keyed_readBased h
  · obtain ⟨⟨ds, rest⟩, -, h⟩ := Option.bind_eq_some_iff.1 h
    dsimp only at h
    split_ifs at h <;> obtain ⟨rfl, -⟩ := Prod.mk.inj (Option.some.inj h) <;> exact .integer _

theorem keyed_readFloat : KeyedReader readFloat := fun {cs v r} h => by
  unfold readFloat at h
  dsimp only at h
  split at h
  · obtain ⟨rfl, -⟩ := Prod.mk.inj (Option.some.inj h)
    exact .float
  · obtain ⟨rfl, -⟩ := Prod.mk.inj (Option.some.inj h)
    exact .float
  · obtain ⟨⟨parts, rest⟩, -, h⟩ := Option.bind_eq_some_iff.1 h
    dsimp only at h
    split_ifs at h
    obtain ⟨rfl, -⟩ := Prod.mk.inj (Option.some.inj h)
    exact .float

theorem keyed_readNumber : KeyedReader readNumber := fun {cs v r} h => by
  unfold readNumber at h
  rcases (Option.orElse_eq_some ..).1 h with h | ⟨-, h⟩
  · obtain ⟨⟨date, rest⟩, -, h⟩ := Option.map_eq_some_iff.1 h
    obtain ⟨rfl, -⟩ := Prod.mk.inj h
    exact .dateTime _
  · rcases (Option.orElse_eq_some ..).1 h with h | ⟨-, h⟩
    · exact keyed_readFloat h
    · exact keyed_readInteger h

theorem keyed_readScalar : KeyedReader readScalar := fun {cs v r} h => by
  unfold readScalar at h
  split at h
  · obtain ⟨rfl, -⟩ := Prod.mk.inj (Option.some.inj h)
    exact .boolean true
  · obtain ⟨rfl, -⟩ := Prod.mk.inj (Option.some.inj h)
    exact .boolean false
  · split_ifs at h
    · obtain ⟨⟨text, rest⟩, -, h⟩ := Option.map_eq_some_iff.1 h
      obtain ⟨rfl, -⟩ := Prod.mk.inj h
      exact .string _
    · exact keyed_readNumber h
  · cases h

theorem keyed_readItems {item : ValueReader} (hitem : KeyedReader item) {limit : Nat}
    {cs r : List Char} {vs : List Value} (h : readItems item limit cs = some (vs, r)) :
    ∀ v ∈ vs, v.Keyed := by
  induction limit generalizing cs r vs with
  | zero => cases h
  | succ limit ih =>
    rw [readItems] at h
    split at h
    · obtain ⟨rfl, -⟩ := Prod.mk.inj (Option.some.inj h)
      exact nofun
    · obtain ⟨⟨v, rest⟩, hv, h⟩ := Option.bind_eq_some_iff.1 h
      dsimp only at h
      split at h
      · obtain ⟨rfl, -⟩ := Prod.mk.inj (Option.some.inj h)
        exact List.forall_mem_singleton.2 (hitem hv)
      · obtain ⟨⟨vs', rest'⟩, hrest, h⟩ := Option.bind_eq_some_iff.1 h
        obtain ⟨rfl, -⟩ := Prod.mk.inj (Option.some.inj h)
        exact List.forall_mem_cons.2 ⟨hitem hv, ih hrest⟩
      · cases h

theorem keyed_readPairs {item : ValueReader} (hitem : KeyedReader item) {limit : Nat}
    {cs r : List Char} {pairs : List (List String × Value)}
    (h : readPairs item limit cs = some (pairs, r)) : ∀ pair ∈ pairs, pair.2.Keyed := by
  induction limit generalizing cs r pairs with
  | zero => cases h
  | succ limit ih =>
    rw [readPairs] at h
    obtain ⟨⟨key, r₁⟩, -, h⟩ := Option.bind_eq_some_iff.1 h
    obtain ⟨r₂, -, h⟩ := Option.bind_eq_some_iff.1 h
    obtain ⟨⟨v, r₃⟩, hv, h⟩ := Option.bind_eq_some_iff.1 h
    dsimp only at h
    split at h
    · obtain ⟨rfl, -⟩ := Prod.mk.inj (Option.some.inj h)
      exact List.forall_mem_singleton.2 (hitem hv)
    · obtain ⟨⟨pairs', r₄⟩, hrest, h⟩ := Option.bind_eq_some_iff.1 h
      obtain ⟨rfl, -⟩ := Prod.mk.inj (Option.some.inj h)
      exact List.forall_mem_cons.2 ⟨hitem hv, ih hrest⟩
    · cases h

theorem keyed_readInlineTable {item : ValueReader} (hitem : KeyedReader item) {limit : Nat} :
    KeyedReader (readInlineTable item limit) := fun {cs v r} h => by
  unfold readInlineTable at h
  split at h
  · obtain ⟨rfl, -⟩ := Prod.mk.inj (Option.some.inj h)
    exact .table List.nodup_nil nofun
  · obtain ⟨⟨pairs, rest⟩, hpairs, h⟩ := Option.bind_eq_some_iff.1 h
    obtain ⟨w, hw, h⟩ := Option.map_eq_some_iff.1 h
    obtain ⟨rfl, -⟩ := Prod.mk.inj h
    exact keyed_inlineTable? (keyed_readPairs hitem hpairs) hw

/-- However deep values nest, each table in them holds each key once. -/
theorem keyed_readValue (limit depth : Nat) : KeyedReader (readValue limit depth) := by
  induction depth with
  | zero => exact keyed_readScalar
  | succ depth ih =>
    intro cs v r h
    unfold readValue at h
    split at h
    · obtain ⟨⟨items, rest⟩, hitems, h⟩ := Option.map_eq_some_iff.1 h
      obtain ⟨rfl, -⟩ := Prod.mk.inj h
      exact .array (keyed_readItems ih hitems)
    · exact keyed_readInlineTable ih h
    · exact keyed_readScalar h

/-! ### Documents -/

/-- The value of an assignment holds each key once in each table. -/
def Statement.Keyed : Statement → Prop
  | .assign _ value => value.Keyed
  | _ => True

theorem keyed_readStatement {limit : Nat} {cs r : List Char} {statement : Option Statement}
    (h : readStatement limit cs = some (statement, r)) : ∀ s ∈ statement, s.Keyed := by
  unfold readStatement at h
  split at h
  · obtain ⟨⟨key, r₁⟩, -, h⟩ := Option.bind_eq_some_iff.1 h
    obtain ⟨r₂, -, h⟩ := Option.bind_eq_some_iff.1 h
    obtain ⟨r₃, -, h⟩ := Option.bind_eq_some_iff.1 h
    obtain ⟨rfl, -⟩ := Prod.mk.inj (Option.some.inj h)
    exact fun s hs => Option.mem_some_iff.1 hs ▸ trivial
  · obtain ⟨⟨key, r₁⟩, -, h⟩ := Option.bind_eq_some_iff.1 h
    obtain ⟨r₂, -, h⟩ := Option.bind_eq_some_iff.1 h
    obtain ⟨rfl, -⟩ := Prod.mk.inj (Option.some.inj h)
    exact fun s hs => Option.mem_some_iff.1 hs ▸ trivial
  · obtain ⟨rfl, -⟩ := Prod.mk.inj (Option.some.inj h)
    exact nofun
  · split_ifs at h
    · obtain ⟨rfl, -⟩ := Prod.mk.inj (Option.some.inj h)
      exact nofun
    · obtain ⟨⟨key, r₁⟩, -, h⟩ := Option.bind_eq_some_iff.1 h
      obtain ⟨r₂, -, h⟩ := Option.bind_eq_some_iff.1 h
      obtain ⟨⟨v, r₃⟩, hv, h⟩ := Option.bind_eq_some_iff.1 h
      obtain ⟨rfl, -⟩ := Prod.mk.inj (Option.some.inj h)
      exact fun s hs => Option.mem_some_iff.1 hs ▸ keyed_readValue _ _ hv

theorem keyed_readStatements {limit lines : Nat} {cs : List Char} {statements : List Statement}
    (h : readStatements limit lines cs = some statements) : ∀ s ∈ statements, s.Keyed := by
  induction lines generalizing cs statements with
  | zero =>
    cases cs with
    | nil =>
      obtain rfl := Option.some.inj (readStatements.eq_1 .. ▸ h)
      exact nofun
    | cons c cs => cases h
  | succ lines ih =>
    cases cs with
    | nil =>
      obtain rfl := Option.some.inj (readStatements.eq_1 .. ▸ h)
      exact nofun
    | cons c cs =>
      rw [readStatements] at h
      · obtain ⟨⟨statement, r₁⟩, hstatement, h⟩ := Option.bind_eq_some_iff.1 h
        obtain ⟨r₂, -, h⟩ := Option.bind_eq_some_iff.1 h
        obtain ⟨rest, hrest, h⟩ := Option.bind_eq_some_iff.1 h
        obtain rfl := Option.some.inj h
        refine List.forall_mem_append.2 ⟨fun s hs => ?_, ih hrest⟩
        exact keyed_readStatement hstatement s (Option.mem_toList.1 hs)
      · exact List.cons_ne_nil c cs

/-- Every statement keeps the keys of a document distinct. -/
theorem Draft.keyed_add {draft next : Draft} {statement : Statement}
    (hstatement : statement.Keyed) (hdraft : draft.entries.Keyed)
    (h : draft.add statement = some next) : next.entries.Keyed := by
  cases statement with
  | assign key value =>
    obtain ⟨entries, hentries, rfl⟩ := Option.map_eq_some_iff.1 h
    exact hdraft.within (fun hinner => hinner.assign hstatement) hentries
  | table key =>
    obtain ⟨entries, hentries, h⟩ := Option.bind_eq_some_iff.1 h
    obtain rfl := Option.some.inj h
    exact hdraft.within Entries.Keyed.openTable hentries
  | arrayTable key =>
    obtain ⟨entries, hentries, h⟩ := Option.bind_eq_some_iff.1 h
    obtain rfl := Option.some.inj h
    exact hdraft.within Entries.Keyed.openArrayTable hentries

/-! ### Dates written as tables -/

theorem map_fst_entriesWithDates? {entries changed : List (String × Value)}
    (h : entriesWithDates? entries = some changed) :
    changed.map Prod.fst = entries.map Prod.fst := by
  induction entries generalizing changed with
  | nil => exact Option.some.inj h ▸ rfl
  | cons entry entries ih =>
    obtain ⟨v, -, h⟩ := Option.bind_eq_some_iff.1 h
    obtain ⟨rest, hrest, h⟩ := Option.bind_eq_some_iff.1 h
    rw [← Option.some.inj h, List.map_cons, List.map_cons, ih hrest]

/-- What comes of a list item by item comes of one of its items. -/
theorem exists_of_mem_mapM {α β : Type} {f : α → Option β} {as : List α} {bs : List β}
    (h : as.mapM f = some bs) {b : β} (hmem : b ∈ bs) : ∃ a ∈ as, f a = some b := by
  induction as generalizing bs with
  | nil =>
    obtain rfl := Option.some.inj (List.mapM_nil.symm.trans h)
    cases hmem
  | cons a as ih =>
    rw [List.mapM_cons] at h
    obtain ⟨first, hfirst, h⟩ := Option.bind_eq_some_iff.1 h
    obtain ⟨rest, hrest, h⟩ := Option.bind_eq_some_iff.1 h
    obtain rfl := Option.some.inj h
    rcases List.mem_cons.1 hmem with rfl | hmem
    · exact ⟨a, List.mem_cons_self, hfirst⟩
    · obtain ⟨before, hbefore, heq⟩ := ih hrest hmem
      exact ⟨before, List.mem_cons_of_mem _ hbefore, heq⟩

theorem itemsWithDates?_eq (items : List Value) :
    itemsWithDates? items = items.mapM Value.withDates? := by
  induction items with
  | nil => rfl
  | cons item items ih =>
    rw [List.mapM_cons, ← ih]
    rfl

theorem entriesWithDates?_eq (entries : List (String × Value)) :
    entriesWithDates? entries =
      entries.mapM fun entry => entry.2.withDates?.map fun v => (entry.1, v) := by
  induction entries with
  | nil => rfl
  | cons entry entries ih =>
    rw [List.mapM_cons, ← ih]
    show _ = (entry.2.withDates?.map fun v => (entry.1, v)).bind _
    rw [Option.bind_map]
    rfl

theorem mem_itemsWithDates? {items changed : List Value} (h : itemsWithDates? items = some changed)
    {v : Value} (hmem : v ∈ changed) : ∃ before ∈ items, before.withDates? = some v :=
  exists_of_mem_mapM ((itemsWithDates?_eq items).symm.trans h) hmem

theorem mem_entriesWithDates? {entries changed : List (String × Value)}
    (h : entriesWithDates? entries = some changed) {entry : String × Value}
    (hmem : entry ∈ changed) :
    ∃ before ∈ entries, before.2.withDates? = some entry.2 := by
  obtain ⟨before, hbefore, heq⟩ :=
    exists_of_mem_mapM ((entriesWithDates?_eq entries).symm.trans h) hmem
  obtain ⟨v, hv, rfl⟩ := Option.map_eq_some_iff.1 heq
  exact ⟨before, hbefore, hv⟩

/-- Putting dates in place of tables keeps the keys of the others distinct. -/
theorem Value.Keyed.withDates? {v w : Value} (hv : v.Keyed) (h : v.withDates? = some w) :
    w.Keyed := by
  induction hv generalizing w with
  | array heach ih =>
    rw [Value.withDates?] at h
    obtain ⟨items, hitems, rfl⟩ := Option.map_eq_some_iff.1 h
    refine .array fun v hmem => ?_
    obtain ⟨before, hbefore, heq⟩ := mem_itemsWithDates? hitems hmem
    exact ih before hbefore heq
  | table hnodup heach ih =>
    rw [Value.withDates?] at h
    split_ifs at h
    · unfold dateOfEntries? at h
      split at h
      · obtain ⟨spelling, -, rfl⟩ := Option.map_eq_some_iff.1 h
        exact .dateTime spelling
      · cases h
    · obtain ⟨entries, hentries, rfl⟩ := Option.map_eq_some_iff.1 h
      refine .table (by rwa [map_fst_entriesWithDates? hentries]) fun entry hmem => ?_
      obtain ⟨before, hbefore, heq⟩ := mem_entriesWithDates? hentries hmem
      exact ih before hbefore heq
  | string s => exact Option.some.inj h ▸ .string s
  | integer n => exact Option.some.inj h ▸ .integer n
  | float => exact Option.some.inj h ▸ .float
  | boolean b => exact Option.some.inj h ▸ .boolean b
  | dateTime spelling => exact Option.some.inj h ▸ .dateTime spelling

/-- **Keys are distinct.** In the table of a document, and in each table within it, each key stands
once. -/
theorem keyed_tableOfText? {s : String} {entries : List (String × Value)}
    (h : tableOfText? s = some entries) : (Value.table entries).Keyed := by
  obtain ⟨statements, hstatements, h⟩ := Option.bind_eq_some_iff.1 h
  obtain ⟨draft, hdraft, h⟩ := Option.bind_eq_some_iff.1 h
  have hkeyed : draft.entries.Keyed :=
    foldlM_keeps (motive := fun draft => draft.entries.Keyed)
      (fun _ hbefore statement hmem _ => Draft.keyed_add (keyed_readStatements hstatements _ hmem)
        hbefore) Entries.keyed_nil hdraft
  refine .table ?_ fun entry hmem => ?_
  · rw [map_fst_entriesWithDates? h, map_fst_entriesToValues]
    exact hkeyed.nodup
  · obtain ⟨before, hbefore, heq⟩ := mem_entriesWithDates? h hmem
    rw [entriesToValues_eq] at hbefore
    obtain ⟨item, hitem, rfl⟩ := List.mem_map.1 hbefore
    exact (hkeyed.each item hitem).toValue.withDates? heq

end RealModeTrace.Toml
