import RealModeTrace.Proofs.Config.Loading
import RealModeTrace.Proofs.Replay.Report
import RealModeTrace.Proofs.Script

/-!
# Refused replays

A replay reads its configuration and its whole script before it opens the log. If anything is wrong
with either, down to the last line of the script, it is refused: nothing is printed, and all files
are as they were, the log among them. So it is with a session that is started from a file.

* `Program`: what reads and writes step by step, each step in the world that the one before it left;
  `Program.run_bind`: one step and those after it;
* `Config.Unloadable`: why a configuration cannot be loaded; `Cli.Refused`: why a replay is refused;
  `Cli.Faulty`: that something is wrong; `Cli.exists_refused_iff`: a replay is refused exactly then;
* `Cli.replaySteps`, `Session.startSteps`: a replay and the start of a session as programs;
  `Cli.run_replaySteps`: a replay comes to the same;
* `Cli.log_of_prepare`: a replay that is not refused replaces the log;
* `Cli.LeavesAll`, `Session.StartLeavesAll`: what is said of refused replays, and of sessions that
  cannot be started; `Cli.refusals_leave_all`: it holds of all of them.
-/

namespace RealModeTrace

/-! ### Programs -/

/-- A program that can fail and works on the world. -/
abbrev Program (ε α : Type) := ExceptT ε (StateM World) α

namespace Program

variable {ε α β : Type} {world : World}

/-- What a program gives, or why it failed, and the world that it leaves. -/
def run (p : Program ε α) (world : World) : Except ε α × World :=
  (StateT.run (ExceptT.run p) world).run

/-- A step that looks at the files and writes nothing. -/
def reading (look : FileTree → Except ε α) : Program ε α :=
  fun world => (look world.files, world)

/-- A step that may write. -/
def acting (act : World → Except ε α × World) : Program ε α :=
  act

/-- A step that fails ends the program in the world that it leaves. -/
theorem run_bind (p : Program ε α) (next : α → Program ε β) (world : World) :
    run (p >>= next) world = match run p world with
      | (.ok a, after) => run (next a) after
      | (.error e, after) => (.error e, after) := by
  have hfirst : run p world = StateT.run (ExceptT.run p) world := rfl
  rw [run, ExceptT.run_bind, StateT.run_bind, hfirst]
  rcases StateT.run (ExceptT.run p) world with ⟨_ | _, after⟩ <;> rfl

theorem run_reading (look : FileTree → Except ε α) (world : World) :
    run (reading look) world = (look world.files, world) := rfl

theorem run_reading_error {look : FileTree → Except ε α} {e : ε} (h : look world.files = .error e)
    (next : α → Program ε β) : run (reading look >>= next) world = (.error e, world) := by
  rw [run_bind, run_reading, h]

theorem run_reading_ok {look : FileTree → Except ε α} {a : α} (h : look world.files = .ok a)
    (next : α → Program ε β) : run (reading look >>= next) world = run (next a) world := by
  rw [run_bind, run_reading, h]

end Program

/-! ### Causes -/

namespace Config

variable {files : FileTree} {path : String} {c : Config} {e : ConfigError}

/-- A configuration is loaded from a file: its text is one, and valid. -/
inductive Loadable (files : FileTree) (path : String) (c : Config) : Prop
  | intro {text : String} (hread : files.readText path = .ok text) (hparse : ofText text = .ok c)
    (hvalid : c.validate = .ok ())

/-- Why no configuration is loaded from a file: it cannot be read, or its text is no configuration,
or not a valid one. -/
inductive Unloadable (files : FileTree) (path : String) : ConfigError → Prop
  | unreadable {cause : FileError} (h : files.readText path = .error cause) :
    Unloadable files path (.io path cause)
  | malformed {text : String} {e : ConfigError} (hread : files.readText path = .ok text)
    (h : ofText text = .error e) : Unloadable files path e
  | invalid {text : String} {c : Config} {e : ConfigError} (hread : files.readText path = .ok text)
    (hparse : ofText text = .ok c) (h : c.validate = .error e) : Unloadable files path e

theorem Loadable.load_eq (h : Loadable files path c) : load files path = .ok c := by
  obtain ⟨hread, hparse, hvalid⟩ := h
  exact ((loadsFile files path).ok_iff _ hread c).2 ⟨hparse, hvalid⟩

theorem Unloadable.load_eq (h : Unloadable files path e) : load files path = .error e := by
  have hload := loadsFile files path
  cases h with
  | unreadable h => exact hload.unreadable _ h
  | malformed hread h => exact hload.unread _ e hread h
  | invalid hread hparse h => exact hload.invalid _ _ e hread hparse h

theorem loadable_or_unloadable (files : FileTree) (path : String) :
    (∃ c, Loadable files path c) ∨ ∃ e, Unloadable files path e := by
  rcases hread : files.readText path with cause | text
  · exact Or.inr ⟨_, .unreadable hread⟩
  · rcases hparse : ofText text with e | c
    · exact Or.inr ⟨e, .malformed hread hparse⟩
    · rcases hvalid : c.validate with e | ⟨⟩
      · exact Or.inr ⟨e, .invalid hread hparse hvalid⟩
      · exact Or.inl ⟨c, hread, hparse, hvalid⟩

theorem load_eq_error_iff : load files path = .error e ↔ Unloadable files path e := by
  refine ⟨fun h => ?_, Unloadable.load_eq⟩
  rcases loadable_or_unloadable files path with ⟨c, hc⟩ | ⟨e', he⟩
  · cases h.symm.trans hc.load_eq
  · obtain rfl := Except.error.inj (h.symm.trans he.load_eq)
    exact he

end Config

namespace Cli

variable {files : FileTree} {options : ReplayOptions} {source : Option String} {c : Config}
variable {failure : Failure} {text : String} {entries : List (Nat × Event)}

/-- The configuration that a replay starts from: the defaults, or what is loaded from a file. -/
inductive Configured (files : FileTree) : Option String → Config → Prop
  | defaults : Configured files none {}
  | loaded {path : String} {c : Config} (h : Config.Loadable files path c) :
    Configured files (some path) c

/-- Why a replay is refused, the causes in the order in which they are looked for. -/
inductive Refused (files : FileTree) (options : ReplayOptions) : Option String → Failure → Prop
  | config {path : String} {e : ConfigError} (h : Config.Unloadable files path e) :
    Refused files options (some path) (.loadConfig path e)
  | script {source : Option String} {c : Config} {cause : FileError}
    (hconfig : Configured files source c) (h : files.readText options.script = .error cause) :
    Refused files options source (.readScript options.script cause)
  /-- The first line that is to be an event and is none. -/
  | line {source : Option String} {c : Config} {text : String} {line : String × Nat}
    (hconfig : Configured files source c) (hread : files.readText options.script = .ok text)
    (h : (Script.spoken text).find? (fun line => (Event.parse? line.1).isNone) = some line) :
    Refused files options source (.parseScript options.script ⟨line.2⟩)

theorem Configured.loadConfig_eq (h : Configured files source c) :
    loadConfig files source = .ok c := by
  cases h with
  | defaults => rfl
  | loaded h =>
    rw [loadConfig, h.load_eq]
    rfl

theorem loadConfig_of_unloadable {path : String} {e : ConfigError}
    (h : Config.Unloadable files path e) :
    loadConfig files (some path) = .error (.loadConfig path e) := by
  rw [loadConfig, h.load_eq]
  rfl

/-- There is a configuration, or else a file that none can be loaded from. -/
theorem configured_or_unloadable (files : FileTree) (source : Option String) :
    (∃ c, Configured files source c) ∨
      ∃ path e, source = some path ∧ Config.Unloadable files path e := by
  cases source with
  | none => exact Or.inl ⟨_, .defaults⟩
  | some path =>
    rcases Config.loadable_or_unloadable files path with ⟨c, hc⟩ | ⟨e, he⟩
    · exact Or.inl ⟨c, .loaded hc⟩
    · exact Or.inr ⟨path, e, rfl, he⟩

theorem parse_of_find {line : String × Nat}
    (h : (Script.spoken text).find? (fun line => (Event.parse? line.1).isNone) = some line) :
    Script.parse text = .error ⟨line.2⟩ :=
  Script.readAll_error_iff.2 (congrArg (Option.map Prod.snd) h)

/-- All lines of a script that are to be events are, or there is a first one that is none. -/
theorem exists_parse_or_find (text : String) : (∃ entries, Script.parse text = .ok entries) ∨
    ∃ line, (Script.spoken text).find? (fun line => (Event.parse? line.1).isNone) = some line := by
  rcases hparse : Script.parse text with bad | entries
  · obtain ⟨line, hline, -⟩ := Option.map_eq_some_iff.1 (Script.readAll_error_iff.1 hparse)
    exact Or.inr ⟨line, hline⟩
  · exact Or.inl ⟨entries, rfl⟩

/-- A replay can begin: there is a configuration, and the script is read. -/
inductive Ready (files : FileTree) (options : ReplayOptions) (source : Option String) (c : Config)
    (entries : List (Nat × Event)) : Prop
  | intro {text : String} (hconfig : Configured files source c)
    (hread : files.readText options.script = .ok text) (hparse : Script.parse text = .ok entries)

theorem ready_or_refused (files : FileTree) (options : ReplayOptions) (source : Option String) :
    (∃ c entries, Ready files options source c entries) ∨
      ∃ failure, Refused files options source failure := by
  rcases configured_or_unloadable files source with ⟨c, hc⟩ | ⟨path, e, rfl, he⟩
  · rcases hread : files.readText options.script with cause | text
    · exact Or.inr ⟨_, .script hc hread⟩
    · rcases exists_parse_or_find text with ⟨entries, hparse⟩ | ⟨line, hline⟩
      · exact Or.inl ⟨c, entries, hc, hread, hparse⟩
      · exact Or.inr ⟨_, .line hc hread hline⟩
  · exact Or.inr ⟨_, .config he⟩

theorem Ready.prepare_eq (h : Ready files options source c entries) :
    prepare files source options = .ok (replayConfig options c, entries.map Prod.snd) := by
  obtain ⟨hconfig, hread, hparse⟩ := h
  simp only [prepare, hconfig.loadConfig_eq, hread, hparse, bind, Except.bind, Except.mapError]
  rfl

theorem Refused.prepare_eq (h : Refused files options source failure) :
    prepare files source options = .error failure := by
  cases h with
  | config h => simp only [prepare, loadConfig_of_unloadable h, bind, Except.bind]
  | script hconfig h =>
    simp only [prepare, hconfig.loadConfig_eq, h, bind, Except.bind, Except.mapError]
  | line hconfig hread h =>
    simp only [prepare, hconfig.loadConfig_eq, hread, parse_of_find h, bind, Except.bind,
      Except.mapError]

/-- Something is wrong with what a replay reads: the configuration cannot be loaded, the script
cannot be read, or any of its lines, the last one included, is to be an event and is none. -/
inductive Faulty (files : FileTree) (options : ReplayOptions) (source : Option String) : Prop
  | config {path : String} {e : ConfigError} (hsource : source = some path)
    (h : Config.Unloadable files path e)
  | script {cause : FileError} (h : files.readText options.script = .error cause)
  | line {text : String} {line : String × Nat} (hread : files.readText options.script = .ok text)
    (hline : line ∈ Script.spoken text) (h : Event.parse? line.1 = none)

theorem Ready.not_faulty (h : Ready files options source c entries) :
    ¬ Faulty files options source := by
  obtain ⟨hconfig, hread, hparse⟩ := h
  rintro (⟨rfl, hunloadable⟩ | hunread | ⟨hread', hline, hbad⟩)
  · cases hconfig with
    | loaded hloadable => cases hloadable.load_eq.symm.trans hunloadable.load_eq
  · cases hread.symm.trans hunread
  · obtain rfl := Except.ok.inj (hread.symm.trans hread')
    have hsome := Script.exists_readAll_iff.1 ⟨_, hparse⟩ _ hline
    rw [hbad] at hsome
    cases hsome

theorem Refused.faulty (h : Refused files options source failure) :
    Faulty files options source := by
  cases h with
  | config h => exact .config rfl h
  | script _ h => exact .script h
  | line _ hread h =>
    have hbad := List.find?_some (p := fun line : String × Nat => (Event.parse? line.1).isNone) h
    exact .line hread (List.mem_of_find?_eq_some h) (Option.isNone_iff_eq_none.1 hbad)

/-- A replay is refused exactly if something is wrong with what it reads. -/
theorem exists_refused_iff :
    (∃ failure, Refused files options source failure) ↔ Faulty files options source := by
  refine ⟨fun ⟨_, h⟩ => h.faulty, fun h => ?_⟩
  rcases ready_or_refused files options source with ⟨c, entries, hready⟩ | hrefused
  · exact absurd h hready.not_faulty
  · exact hrefused

end Cli

/-! ### Step by step -/

namespace Session

/-- The start of a session from a configuration file: load the configuration, then start. -/
def startSteps (path : String) (now : Duration) : Program TraceError (Session × List Record) := do
  let c ← Program.reading fun files => (Config.load files path).mapError .config
  Program.acting fun world =>
    let (s, world, records) := Setup.start { config := c } now world
    (.ok (s, records), world)

variable (world : World) (path : String) (now : Duration)

theorem run_startSteps_of_error {e : ConfigError} (h : Config.load world.files path = .error e) :
    (startSteps path now).run world = (.error (.config e), world) :=
  Program.run_reading_error (by rw [h]; rfl) _

theorem run_startSteps_of_ok {c : Config} (h : Config.load world.files path = .ok c) :
    (startSteps path now).run world =
      (.ok ((Setup.start { config := c } now world).1, (Setup.start { config := c } now world).2.2),
        (Setup.start { config := c } now world).2.1) :=
  Program.run_reading_ok (by rw [h]; rfl) _

end Session

namespace Cli

section Steps

variable (world : World) (clock : Nat → Readings) (sessionId : String) (invocation : Invocation)
variable (options : ReplayOptions)

/-- A replay step by step: load the configuration, read the script, parse it, and only then open the
log, run the events and close the log. -/
def replaySteps : Program Failure String := do
  let c ← Program.reading fun files => loadConfig files invocation.config
  let text ← Program.reading fun files =>
    (files.readText options.script).mapError (.readScript options.script)
  let entries ← Program.reading fun _ =>
    (Script.parse text).mapError (.parseScript options.script)
  Program.acting fun world =>
    let events := entries.map Prod.snd
    let r := (Replay.start (replayConfig options c) world ((clock 0).nth 0)).feedAll clock events
    let o := r.finish ((clock (events.length + 1)).nth 0) events.length invocation options.script
      sessionId
    (o.result, o.world)

variable {world options}

theorem replay_of_refused {failure : Failure}
    (h : Refused world.files options invocation.config failure) :
    replay world clock sessionId invocation options = ⟨world, .error failure⟩ := by
  rw [replay, h.prepare_eq]

theorem run_replaySteps_of_refused {failure : Failure}
    (h : Refused world.files options invocation.config failure) :
    (replaySteps clock sessionId invocation options).run world = (.error failure, world) := by
  unfold replaySteps
  generalize invocation.config = source at h ⊢
  cases h with
  | config h => exact Program.run_reading_error (loadConfig_of_unloadable h) _
  | script hconfig h =>
    rw [Program.run_reading_ok hconfig.loadConfig_eq]
    exact Program.run_reading_error (by rw [h]; rfl) _
  | line hconfig hread h =>
    rw [Program.run_reading_ok hconfig.loadConfig_eq,
      Program.run_reading_ok (by rw [hread]; rfl)]
    exact Program.run_reading_error (by rw [parse_of_find h]; rfl) _

theorem run_replaySteps_of_ready {c : Config} {entries : List (Nat × Event)}
    (h : Ready world.files options invocation.config c entries) :
    (replaySteps clock sessionId invocation options).run world =
      ((replay world clock sessionId invocation options).result,
        (replay world clock sessionId invocation options).world) := by
  unfold replay
  rw [h.prepare_eq]
  obtain ⟨hconfig, hread, hparse⟩ := h
  unfold replaySteps
  rw [Program.run_reading_ok hconfig.loadConfig_eq, Program.run_reading_ok (by rw [hread]; rfl),
    Program.run_reading_ok (by rw [hparse]; rfl)]
  rfl

/-- Taken step by step a replay comes to the same. -/
theorem run_replaySteps : (replaySteps clock sessionId invocation options).run world =
    ((replay world clock sessionId invocation options).result,
      (replay world clock sessionId invocation options).world) := by
  rcases ready_or_refused world.files options invocation.config with ⟨c, entries, h⟩ | ⟨failure, h⟩
  · exact run_replaySteps_of_ready clock sessionId invocation h
  · rw [run_replaySteps_of_refused clock sessionId invocation h,
      replay_of_refused clock sessionId invocation h]

/-- A replay fails because it is refused, or because its log cannot be closed. -/
theorem refused_or_closeLog {failure : Failure}
    (h : (replay world clock sessionId invocation options).result = .error failure) :
    Refused world.files options invocation.config failure ∨
      ∃ cause, failure = .closeLog (.io cause) := by
  rcases ready_or_refused world.files options invocation.config with
    ⟨c, entries, hready⟩ | ⟨failure', hrefused⟩
  · exact Or.inr ((replayed_of_prepare clock sessionId invocation options
      hready.prepare_eq).failed failure h)
  · rw [replay_of_refused clock sessionId invocation hrefused] at h
    exact Or.inl (Except.error.inj h ▸ hrefused)

/-- The log of a replay that is not refused is replaced: it holds the lines of the replay, and
nothing that was there before. -/
theorem log_of_prepare {config : Config} {events : List Event} {path : String} {loc : Location}
    {files : FileTree}
    (hread : prepare world.files invocation.config options = .ok (config, events))
    (htarget : config.logTarget = .file path) (hcreate : world.files.create path = .ok (loc, files))
    (hdevice : ∀ device, world.files.node? loc ≠ some (.device device)) :
    (replay world clock sessionId invocation options).world.files.node? loc =
      some (.file (Text.utf8 (Text.unlines (Setup.lines { config } ((clock 0).nth 0) world
        (Script.tracerCalls clock events ++ [(clock (events.length + 1), .shutdown)]))))) := by
  have hlog := Setup.logsTo_of_create { config } world (of_prepare hread).1 rfl htarget hcreate
    hdevice
  obtain ⟨hfile, -⟩ := hlog.inFile.pushAll (Setup.lines { config } ((clock 0).nth 0) world
    (Script.tracerCalls clock events ++ [(clock (events.length + 1), .shutdown)]))
  obtain ⟨hworld, -⟩ := Setup.delivered_after { config } ((clock 0).nth 0) world
    (Script.tracerCalls clock events ++ [(clock (events.length + 1), .shutdown)])
  rw [replay_eq clock sessionId invocation options hread, Replay.ending_eq]
  dsimp only
  rw [hworld]
  exact hfile.file_eq

end Steps

/-! ### Every refusal -/

/-- What is said of a replay: if it is refused, it leaves everything as it was. -/
structure LeavesAll (world : World) (clock : Nat → Readings) (sessionId : String)
    (invocation : Invocation) (options : ReplayOptions) : Prop where
  /-- It is refused exactly if something is wrong with what it reads. -/
  refused_iff : (∃ failure, Refused world.files options invocation.config failure) ↔
    Faulty world.files options invocation.config
  /-- Then it fails, for the cause that is found first, and the world is as it was, … -/
  untouched : ∀ failure, Refused world.files options invocation.config failure →
    replay world clock sessionId invocation options = ⟨world, .error failure⟩
  /-- … and nothing is printed. -/
  silent : ∀ failure, Refused world.files options invocation.config failure →
    (replay world clock sessionId invocation options).output = world.consoleText
  /-- It fails for no other reason, but that the log cannot be closed. -/
  failed : ∀ failure, (replay world clock sessionId invocation options).result = .error failure →
    Refused world.files options invocation.config failure ∨ ∃ cause, failure = .closeLog (.io cause)
  /-- The replay is the program that reads before it writes. -/
  in_steps : (replaySteps clock sessionId invocation options).run world =
    ((replay world clock sessionId invocation options).result,
      (replay world clock sessionId invocation options).world)
  /-- If it is not refused, the file that it logs to is replaced. -/
  replaced : ∀ config events path loc files,
    prepare world.files invocation.config options = .ok (config, events) →
    config.logTarget = .file path → world.files.create path = .ok (loc, files) →
    (∀ device, world.files.node? loc ≠ some (.device device)) →
    (replay world clock sessionId invocation options).world.files.node? loc =
      some (.file (Text.utf8 (Text.unlines (Setup.lines { config } ((clock 0).nth 0) world
        (Script.tracerCalls clock events ++ [(clock (events.length + 1), .shutdown)])))))

theorem leavesAll (world : World) (clock : Nat → Readings) (sessionId : String)
    (invocation : Invocation) (options : ReplayOptions) :
    LeavesAll world clock sessionId invocation options where
  refused_iff := exists_refused_iff
  untouched _ h := replay_of_refused clock sessionId invocation h
  silent _ h := by
    rw [replay_of_refused clock sessionId invocation h]
    exact String.append_empty
  failed _ h := refused_or_closeLog clock sessionId invocation h
  in_steps := run_replaySteps clock sessionId invocation
  replaced _ _ _ _ _ := log_of_prepare clock sessionId invocation

end Cli

/-- What is said of the start of a session from a file: if it fails, it leaves everything as it
was. -/
structure Session.StartLeavesAll (world : World) (path : String) (now : Duration) : Prop where
  /-- It fails exactly if no configuration can be loaded. -/
  failed_iff : ∀ error, ofConfigFile world path now = .error error ↔
    ∃ e, Config.Unloadable world.files path e ∧ error = .config e
  /-- Then the world is as it was. -/
  untouched : ∀ error, ofConfigFile world path now = .error error →
    (startSteps path now).run world = (.error error, world)
  /-- Otherwise the session is started. -/
  started : ∀ s after records, ofConfigFile world path now = .ok (s, after, records) →
    (startSteps path now).run world = (.ok (s, records), after)

theorem Session.startLeavesAll (world : World) (path : String) (now : Duration) :
    StartLeavesAll world path now := by
  have hruns := Config.runsOnFile world path now
  constructor
  case failed_iff =>
    intro error
    simp only [hruns.failed_iff, Config.load_eq_error_iff]
  case untouched =>
    intro error h
    obtain ⟨e, he, rfl⟩ := (hruns.failed_iff error).1 h
    exact run_startSteps_of_error world path now he
  case started =>
    intro s after records h
    obtain ⟨c, hc, heq⟩ := (hruns.started_iff _).1 h
    rw [run_startSteps_of_ok world path now hc, ← heq]

/-- **Refusals leave everything as it was.** A replay is refused exactly if its configuration cannot
be read, parsed or validated, or its script cannot be read as text, or any line of it that is to be
an event is none. Then no trace line is written, nothing is printed, and every file is as it was,
also the one that was to be the log; a replay that is not refused replaces that file. The start of a
session from a file that cannot be loaded leaves everything as it was, too. -/
theorem Cli.refusals_leave_all (world : World) (clock : Nat → Readings) (sessionId : String)
    (invocation : Cli.Invocation) (options : Cli.ReplayOptions) (path : String) (now : Duration) :
    Cli.LeavesAll world clock sessionId invocation options ∧
      Session.StartLeavesAll world path now :=
  ⟨Cli.leavesAll world clock sessionId invocation options, Session.startLeavesAll world path now⟩

/-- A log, and a script of which only the last line is no event. -/
def badEnd : World where
  files :=
    { entries := [(["t.log"], .file (Text.utf8 "old\n")),
        (["s"], .file (Text.utf8 ((Event.fileClosed 5).render ++ "\n\n# end\nend\n")))] }

/-- A replay of that script to that log. -/
def badEndOptions : Cli.ReplayOptions := { script := "s", log := some "t.log", eager := true }

/-- The script is refused for its last line, and the log is as it was. -/
example :
    let o := Cli.replay badEnd (fun _ => 0) "" { command := .replay badEndOptions } badEndOptions
    o.result = .error (.parseScript "s" ⟨4⟩) ∧ o.world.files.readText "t.log" = .ok "old\n" := by
  decide +kernel

end RealModeTrace
