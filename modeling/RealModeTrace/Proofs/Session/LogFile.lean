import RealModeTrace.Proofs.Session.Output
import RealModeTrace.Proofs.Session.Records
import RealModeTrace.Proofs.Trace.Shape

/-!
# The log file

A log file holds the lines of a session, each with its line end, and nothing else. Taken apart at
the line ends it gives those lines back, if no text from outside has a line end in it; the texts are
written as they are, so that one with a line end makes a line of its own.

* `Setup.LogsTo`: the session logs to a file that is stored;
* `Setup.openSink_of_create`, `Setup.logsTo_of_create`: a session does, if the log file of its
  options can be opened and is no device;
* `Setup.log_lines`: the lines in the file;
* `Setup.log_line_forged`: a file name with a line end makes a line in the log.
-/

namespace RealModeTrace.Setup

variable (setup : Setup) (now : Duration) (world : World)

/-- The session is enabled, and its sink is an open file that is stored and still empty. -/
structure LogsTo (loc : Location) : Prop where
  enabled : setup.config.enabled = true
  inFile : (setup.outlet world).InFile loc ""

/-- The sink of a session whose log file can be opened. -/
theorem openSink_of_create {path : String} {loc : Location} {files : FileTree}
    (hsink : setup.sink = none) (htarget : setup.config.logTarget = .file path)
    (hcreate : world.files.create path = .ok (loc, files)) :
    setup.openSink world = (.file loc none, { world with files }, none) := by
  simp only [openSink, hsink, htarget, Sink.openTarget, hcreate]
  rfl

theorem logsTo_of_create {path : String} {loc : Location} {files : FileTree}
    (henabled : setup.config.enabled = true) (hsink : setup.sink = none)
    (htarget : setup.config.logTarget = .file path)
    (hcreate : world.files.create path = .ok (loc, files))
    (hdevice : ∀ device, world.files.node? loc ≠ some (.device device)) :
    setup.LogsTo world loc where
  enabled := henabled
  inFile := by
    rw [outlet, if_pos henabled, setup.openSink_of_create world hsink htarget hcreate]
    refine ⟨rfl, ?_⟩
    exact (FileTree.create_eq_ok hcreate).resolve_right (not_exists.2 hdevice)

/-- No line ends within a line if none ends within a text from outside. -/
theorem newline_notMem_of_mem_lines {h : History}
    (hfree : ∀ text ∈ setup.texts world h, '\n' ∉ text.toList) {line : String}
    (hline : line ∈ setup.lines now world h) : '\n' ∉ line.toList := by
  obtain ⟨r, hr, rfl⟩ := List.mem_map.1 hline
  refine Record.newline_notMem (setup.windowed_of_mem_trace now world hr) fun name hname => ?_
  rcases setup.names_of_mem_trace now world hr hname with htext | rfl
  · exact hfree name htext
  · decide

/-- **The lines of a log file.** After every history of a session that logs to a file, the file
holds the lines of the session, each with its line end, and the session counts them; every line
begins with its time or with the mark of a banner. Taken apart at the line ends, the content has a
piece for each line that was counted and for each line end within one, and an empty piece at the
end; these are the lines themselves if no name of a file, command line or path of the log that was
brought from outside has a line end in it. -/
theorem log_lines {loc : Location} (hlog : setup.LogsTo world loc) (h : History) :
    ∃ content : String,
      (setup.worldAfter now world h).files.node? loc = some (.file (Text.utf8 content)) ∧
      content = Text.unlines (setup.lines now world h) ∧
      (setup.lines now world h).length = (setup.after now world h).linesWritten ∧
      (∀ line ∈ setup.lines now world h, HasOpening line) ∧
      (Text.splitAt '\n' content).length = (setup.after now world h).linesWritten +
        Text.newlines (setup.lines now world h) + 1 ∧
      ((∀ text ∈ setup.texts world h, '\n' ∉ text.toList) →
        Text.splitAt '\n' content = setup.lines now world h ++ [""]) := by
  obtain ⟨hfile, htaken⟩ := hlog.inFile.pushAll (setup.lines now world h)
  obtain ⟨hworld, hwritten, -⟩ := setup.delivered_after now world h
  have hcount : (setup.lines now world h).length = (setup.after now world h).linesWritten := by
    rw [hwritten, htaken, outlet_taken, Nat.zero_add]
  refine ⟨Text.unlines (setup.lines now world h), ?_, rfl, hcount, fun line hline => ?_, ?_,
    fun hfree => ?_⟩
  · rw [hworld]
    exact hfile.file_eq
  · obtain ⟨r, -, rfl⟩ := List.mem_map.1 hline
    exact r.hasOpening_text
  · rw [Text.length_splitAt_unlines, hcount]
  · exact Text.splitAt_unlines fun line hline =>
      setup.newline_notMem_of_mem_lines now world hfree hline

/-- A session with eager options and a log file. -/
def logging : Setup where
  config := { enabled := true, logfile := "t.log", waitForLoad := false }

/-- A file of some name is created, and the session is ended. -/
def creates (filename : String) : History :=
  [(0, .event .blank (.fileCreated filename 0)), (0, .shutdown)]

theorem logging_logsTo : logging.LogsTo {} ["t.log"] := by
  obtain ⟨files, hcreate⟩ : ∃ files, ({} : FileTree).create "t.log" = .ok (["t.log"], files) :=
    FileTree.exists_create (by decide +kernel)
  exact logging.logsTo_of_create {} rfl rfl (by decide) hcreate nofun

/-- A log with three lines. -/
theorem log_lines_creates : logging.LogsTo {} ["t.log"] ∧
    (∀ text ∈ logging.texts {} (creates "A.TXT"), '\n' ∉ text.toList) ∧
    ∃ content : String,
      (logging.worldAfter 0 {} (creates "A.TXT")).files.node? ["t.log"] =
        some (.file (Text.utf8 content)) ∧
      Text.splitAt '\n' content = logging.lines 0 {} (creates "A.TXT") ++ [""] := by
  have hfree : ∀ text ∈ logging.texts {} (creates "A.TXT"), '\n' ∉ text.toList := by
    decide +kernel
  obtain ⟨content, hfile, -, -, -, -, hsplit⟩ :=
    logging.log_lines 0 {} logging_logsTo (creates "A.TXT")
  exact ⟨logging_logsTo, hfree, content, hfile, hsplit hfree⟩

/-- A name for a file, with a line end in it and what looks like a line after that. -/
def forgedName : String := "A\n[T+00000000ms] B"

/-- **A forged line.** A file name with a line end in it makes two lines of one in the log, and the
second begins like a line of the trace: the session counts three lines and the file has four. -/
theorem log_line_forged : logging.LogsTo {} ["t.log"] ∧ ∃ content : String,
    (logging.worldAfter 0 {} (creates forgedName)).files.node? ["t.log"] =
      some (.file (Text.utf8 content)) ∧
    (logging.after 0 {} (creates forgedName)).linesWritten = 3 ∧
    Text.splitAt '\n' content =
      ["[debugtrace] === TRACE LOGGING STARTED ===",
        "[T+00000000ms] FILE CREATE: \"A",
        "[T+00000000ms] B\" attributes=0x0000",
        "[debugtrace] === TRACE LOGGING ENDED ===", ""] := by
  have hlines : logging.lines 0 {} (creates forgedName) =
      ["[debugtrace] === TRACE LOGGING STARTED ===",
        "[T+00000000ms] FILE CREATE: \"A\n[T+00000000ms] B\" attributes=0x0000",
        "[debugtrace] === TRACE LOGGING ENDED ==="] := by
    decide +kernel
  obtain ⟨hfile, htaken⟩ :=
    logging_logsTo.inFile.pushAll (logging.lines 0 {} (creates forgedName))
  obtain ⟨hworld, hwritten, -⟩ := logging.delivered_after 0 {} (creates forgedName)
  refine ⟨logging_logsTo, Text.unlines (logging.lines 0 {} (creates forgedName)), ?_, ?_, ?_⟩
  · rw [hworld]
    exact hfile.file_eq
  · rw [hwritten, htaken, hlines]
    rfl
  · rw [hlines]
    decide +kernel

end RealModeTrace.Setup
