import RealModeTrace.Proofs.Session.MasterSwitch
import RealModeTrace.Proofs.Session.Output
import RealModeTrace.Proofs.Session.Reads
import RealModeTrace.Proofs.Session.Records
import RealModeTrace.Proofs.Trace.ReadBack

/-!
# Data of reads

A read that completes is told of with its result, and with the bytes of its buffer, as many as were
read and may be shown. The addresses of a buffer wrap at thirty-two bits.

* `Host.window`: the bytes of a buffer; `FileLog.shownCount`: how many of them are shown;
* `ShowsBuffer`: a line shows bytes of a buffer, and can be read back; `showsBuffer_text`: the line
  of data does;
* `FileLog.Reports`: the lines of a completion; `FileLog.reports`: so are they in every state, for
  every buffer and at whatever times;
* `Setup.DumpsReads`: the lines of the completions of a session; `Setup.reads_dumped`: so are they
  after every history.
-/

namespace RealModeTrace

open Text

/-! ### Buffers -/

/-- The bytes at consecutive addresses, which wrap at thirty-two bits. -/
def Host.window (host : Host) (buffer : UInt32) (count : Nat) : List UInt8 :=
  (List.range count).map fun i => host.readByte (.ofNat ((buffer.toNat + i) % 2 ^ 32))

theorem Host.bytes_eq_window (host : Host) (buffer : UInt32) (count : Nat) :
    host.bytes buffer count = host.window buffer count := by
  refine List.map_congr_left fun i _ => congrArg host.readByte ?_
  rw [← UInt32.toNat_inj, UInt32.toNat_add, UInt32.toNat_ofNat', UInt32.toNat_ofNat',
    Nat.add_mod_mod, Nat.mod_mod]

@[simp] theorem Host.length_window (host : Host) (buffer : UInt32) (count : Nat) :
    (host.window buffer count).length = count := by
  rw [← host.bytes_eq_window, Host.length_bytes]

/-! ### Lines of data -/

/-- The line shows so many bytes of a buffer at a time. -/
structure ShowsBuffer (line : String) (elapsed : UInt64) (host : Host) (buffer : UInt32)
    (count : Nat) : Prop where
  /-- Nothing of the line is cut. -/
  whole : line = (Record.timed elapsed (.fileData (host.window buffer count))).full
  fits : line.utf8ByteSize ≤ dataLineCapacity
  time : readTime? line = some elapsed.toNat
  /-- The line announces how many bytes it shows, and shows them in order. -/
  data : readDump? (payloadOf line) = some (count, host.window buffer count)

/-- No line of data is cut, up to the most bytes that are shown and at whatever time. -/
theorem showsBuffer_text (elapsed : UInt64) (host : Host) (buffer : UInt32) {count : Nat}
    (hcount : count ≤ dumpCeiling.toNat) :
    ShowsBuffer (Record.timed elapsed (.fileData (host.window buffer count))).text elapsed host
      buffer count := by
  have hwindow : (Record.timed elapsed (.fileData (host.window buffer count))).Windowed := by
    show (host.window buffer count).length ≤ dumpCeiling.toNat
    rwa [Host.length_window]
  have hwhole := Record.text_eq_full_of_names rfl hwindow nofun
  refine ⟨hwhole, (Record.longestPrefix_text _).fits, Record.readTime?_text _, ?_⟩
  rw [hwhole, Record.payloadOf_full, Record.body, readDump?_fileData, Host.length_window]

namespace FileLog

/-- A read from this handle waits for its completion. -/
def awaits (log : FileLog) (handle : UInt16) : Bool :=
  log.pending.slot.any (·.handle == handle)

/-- The number of bytes that are shown of a read. -/
def shownCount (actual : UInt16) (limit : Nat) : Nat :=
  min (min limit actual.toNat) 512

/-- The line of the result of a read. -/
def resultLine (log : FileLog) (elapsed : UInt64) (handle actual : UInt16) : String :=
  (Record.timed elapsed (.fileReadResult (log.handles.lookup handle) handle actual)).text

/-- The lines of a completion, each at a time of its own. -/
def completionLines (log : FileLog) (times : Nat → UInt64) (host : Host) (handle actual : UInt16)
    (buffer : UInt32) (limit : Nat) : List String :=
  (log.completeRead host handle actual buffer limit).2.mapIdx fun n payload =>
    (Record.timed (times n) payload).text

theorem dataPayload_eq (host : Host) (buffer : UInt32) (actual : UInt16) (limit : Nat) :
    dataPayload host buffer actual limit =
      if shownCount actual limit = 0 then []
      else [.fileData (host.window buffer (shownCount actual limit))] := by
  rw [← host.bytes_eq_window]
  rfl

theorem length_le_of_mem_dataPayload {host : Host} {buffer : UInt32} {actual : UInt16} {limit : Nat}
    {bytes : List UInt8} (h : .fileData bytes ∈ dataPayload host buffer actual limit) :
    bytes.length ≤ limit := by
  rw [dataPayload_eq] at h
  obtain ⟨-, h⟩ := List.mem_ite_nil_left.1 h
  obtain rfl := Payload.fileData.inj (List.mem_singleton.1 h)
  rw [Host.length_window]
  exact (Nat.min_le_left ..).trans (Nat.min_le_left ..)

theorem completionLines_eq (log : FileLog) (times : Nat → UInt64) (host : Host)
    (handle actual : UInt16) (buffer : UInt32) (limit : Nat) :
    log.completionLines times host handle actual buffer limit =
      if log.awaits handle then
        log.resultLine (times 0) handle actual ::
          if shownCount actual limit = 0 then []
          else [(Record.timed (times 1)
            (.fileData (host.window buffer (shownCount actual limit)))).text]
      else [] := by
  unfold completionLines completeRead PendingRead.complete awaits
  rcases log.pending.slot with _ | request
  · rfl
  · rw [Option.any_some, Option.filter_some, dataPayload_eq]
    rcases request.handle == handle with _ | _
    · rfl
    · split_ifs <;> rfl

/-- What the lines of a completion are. -/
structure Reports (log : FileLog) (times : Nat → UInt64) (host : Host) (handle actual : UInt16)
    (buffer : UInt32) (limit : Nat) : Prop where
  /-- A completion that does not match the read that waits makes no line. -/
  unmatched : log.awaits handle = false →
    log.completionLines times host handle actual buffer limit = []
  /-- The line of a result tells of it, at its time. -/
  result : "FILE READ RESULT: \"".toList <+: payloadOf (log.resultLine (times 0) handle actual) ∧
    readTime? (log.resultLine (times 0) handle actual) = some (times 0).toNat
  /-- One that matches makes this line, and no other if there is nothing to show. -/
  empty : log.awaits handle = true → shownCount actual limit = 0 →
    log.completionLines times host handle actual buffer limit =
      [log.resultLine (times 0) handle actual]
  /-- If there is, one more line shows it. -/
  shown : log.awaits handle = true → 0 < shownCount actual limit →
    ∃ line, log.completionLines times host handle actual buffer limit =
        [log.resultLine (times 0) handle actual, line] ∧
      ShowsBuffer line (times 1) host buffer (shownCount actual limit)

/-- **The lines of a completion**, in every state of the log, for every machine, buffer and count,
under every limit and at whatever times. -/
theorem reports (log : FileLog) (times : Nat → UInt64) (host : Host) (handle actual : UInt16)
    (buffer : UInt32) (limit : Nat) : log.Reports times host handle actual buffer limit where
  unmatched h := by rw [completionLines_eq, if_neg (Bool.eq_false_iff.1 h)]
  result := ⟨Record.isPrefix_payloadOf String.join_cons (by decide), Record.readTime?_text _⟩
  empty h hcount := by rw [completionLines_eq, if_pos h, if_pos hcount]
  shown h hcount := by
    refine ⟨_, by rw [completionLines_eq, if_pos h, if_neg hcount.ne'], ?_⟩
    exact showsBuffer_text (times 1) host buffer (Nat.min_le_right ..)

/-- A buffer at the end of the address space goes on at its beginning. -/
example : completionLines { pending := ⟨some ⟨5, 64, 0xF000, 0xFFFE⟩⟩ } (12 + .ofNat ·)
    { Host.blank with readByte := UInt32.toUInt8 } 5 9 0xFFFFFFFE 4 =
      ["[T+00000012ms] FILE READ RESULT: \"<unknown>\" (handle=5) actual=9",
        "[T+00000013ms] FILE DATA [first 4 bytes]: FE FF 00 01"] := by
  decide +kernel

end FileLog

/-! ### Sessions -/

theorem Session.map_text_stampAll (s : Session) (clock : Readings) (payloads : List Payload) :
    (s.stampAll clock payloads).map Record.text =
      payloads.mapIdx fun n payload => (Record.timed (s.elapsed (clock.nth n)) payload).text := by
  refine List.ext_getElem? fun i => ?_
  rw [List.getElem?_map, stampAll, List.getElem?_mapIdx, List.getElem?_mapIdx, Option.map_map]
  rfl

theorem Session.answer_of_tracesFiles {s : Session} (ht : s.tracesFiles = true) (clock : Readings)
    (host : Host) (handle actual : UInt16) (buffer : UInt32) :
    s.answer (clock, .event host (.readCompleted handle actual buffer)) =
      s.stampAll clock
        (s.files.completeRead host handle actual buffer s.config.dumpLimit).2 :=
  (s.observe_snd clock host (.readCompleted handle actual buffer)).trans (if_pos ht)

namespace Setup

variable (setup : Setup) (now : Duration) (world : World)

/-- The latest options that were given, as they were given. -/
def optionsGiven (h : History) : Config :=
  (h.filterMap (·.2.newConfig?)).getLast?.getD setup.config

theorem dumpLimit_optionsAfter (h : History) :
    (setup.optionsAfter h).dumpLimit = min (setup.optionsGiven h).dumpBytes.toNat 512 := by
  show (min (min (setup.optionsGiven h).dumpBytes dumpCeiling) dumpCeiling).toNat = _
  rw [UInt32.toNat_min, UInt32.toNat_min]
  exact Nat.min_eq_left (Nat.min_le_right ..)

/-- What completions make known after a history. -/
structure DumpsReads (h : History) : Prop where
  /-- While file events are traced, a completion makes its lines under the limit in force. -/
  traced : (setup.after now world h).tracesFiles = true → ∀ clock host handle actual buffer,
    ((setup.after now world h).answer
        (clock, .event host (.readCompleted handle actual buffer))).map Record.text =
      (setup.after now world h).files.completionLines
        (fun n => (setup.after now world h).elapsed (clock.nth n)) host handle actual buffer
        (setup.optionsAfter h).dumpLimit
  /-- Otherwise it makes none. -/
  untraced : (setup.after now world h).tracesFiles = false → ∀ clock host handle actual buffer,
    (setup.after now world h).answer
      (clock, .event host (.readCompleted handle actual buffer)) = []
  /-- The limit in force is the number of bytes asked for last, or the greatest that can be. -/
  limit_eq : (setup.optionsAfter h).dumpLimit = min (setup.optionsGiven h).dumpBytes.toNat 512
  /-- No call shows more data. -/
  bounded : ∀ entry elapsed bytes,
    .timed elapsed (.fileData bytes) ∈ (setup.after now world h).answer entry →
    bytes.length ≤ (setup.optionsAfter h).dumpLimit
  /-- The lines of the records are what goes to the sink. -/
  delivered : setup.worldAfter now world h =
    ((setup.outlet world).pushAll (setup.lines now world h)).world

/-- **Reads are shown faithfully.** A completion that matches the read that waits is told of with
one line for its result, and, unless that is none, with one line for the bytes of the buffer, as
many as were read and as the limit and 512 allow: the line announces how many they are, and they can
be read back from it, none missing, at whatever address the buffer begins and however late it is.
After every history of every session, the limit is the number of bytes that the latest options ask
for, so that no more than those are ever shown. -/
theorem reads_dumped (h : History) :
    (∀ (log : FileLog) times host handle actual buffer limit,
      log.Reports times host handle actual buffer limit) ∧ setup.DumpsReads now world h := by
  have hs := setup.sound_after now world h
  have hconfig := setup.after_config now world h
  refine ⟨FileLog.reports, ?_⟩
  constructor
  case limit_eq => exact setup.dumpLimit_optionsAfter h
  case delivered => exact (setup.delivered_after now world h).world_eq
  case traced =>
    intro ht clock host handle actual buffer
    rw [Session.answer_of_tracesFiles ht, Session.map_text_stampAll, hconfig]
    rfl
  case untraced =>
    intro ht clock host handle actual buffer
    rw [Session.answer_readCompleted, ht]
    rfl
  case bounded =>
    intro entry elapsed bytes hmem
    obtain ⟨handle, hc⟩ := hs.exists_completed hmem rfl nofun
    obtain ⟨clock, call⟩ := entry
    obtain ⟨host, actual, buffer, rfl⟩ := Session.Call.exists_of_completed hc
    rw [Session.answer_readCompleted, hconfig] at hmem
    obtain ⟨-, hmem⟩ := List.mem_ite_nil_right.1 hmem
    rcases List.mem_cons.1 hmem with heq | hmem
    · cases heq
    · obtain ⟨payload, hpayload, heq⟩ := List.mem_map.1 hmem
      obtain rfl := (Record.timed.inj heq).2
      exact FileLog.length_le_of_mem_dataPayload hpayload

end Setup

end RealModeTrace
