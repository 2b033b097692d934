import RealModeTrace.Clock
import RealModeTrace.Trace.Record

/-!
# Trace writer

The writer renders records into one line buffer, which it uses again for every line, writes the
lines to its sink, and counts those that the sink took and those that it refused. It also keeps the
epoch of the trace.
-/

namespace RealModeTrace

/-- A sink with the epoch of its trace and the counts of its lines. -/
structure Writer where
  sink : Sink
  epoch : Epoch := .unset
  line : LineBuffer := default
  linesWritten : Nat := 0
  writeErrors : Nat := 0

namespace Writer

/-- A writer over a sink, without an epoch. -/
def ofSink (sink : Sink) : Writer := { sink }

/-- Milliseconds since the epoch. -/
def elapsed (w : Writer) (now : Duration) : UInt64 :=
  w.epoch.elapsed now

/-- Move the epoch to a reading. -/
def resetEpoch (w : Writer) (now : Duration) : Writer :=
  { w with epoch := .startingAt now }

/-- Set the epoch to a reading if there is none. -/
def ensureEpoch (w : Writer) (now : Duration) : Writer :=
  { w with epoch := w.epoch.ensure now }

/-- Write the line of some pieces and count it. -/
def writePieces (w : Writer) (world : World) (capacity : Nat) (pieces : List String) :
    Writer × World :=
  let line := w.line.render capacity pieces
  let (sink, world, error) := w.sink.writeLine world line.text
  match error with
  | none => ({ w with sink, line, linesWritten := w.linesWritten + 1 }, world)
  | some _ => ({ w with sink, line, writeErrors := w.writeErrors + 1 }, world)

/-- Write the line of a record. -/
def emit (w : Writer) (world : World) (r : Record) : Writer × World :=
  w.writePieces world r.capacity r.pieces

/-- Write the lines of records. -/
def emitAll (w : Writer) (world : World) (records : List Record) : Writer × World :=
  records.foldl (fun state r => state.1.emit state.2 r) (w, world)

@[simp] theorem emitAll_nil (w : Writer) (world : World) : w.emitAll world [] = (w, world) := rfl

theorem emitAll_cons (w : Writer) (world : World) (r : Record) (records : List Record) :
    w.emitAll world (r :: records) =
      (w.emit world r).1.emitAll (w.emit world r).2 records := rfl

end Writer

end RealModeTrace
