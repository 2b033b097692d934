import RealModeTrace.Config.Basic
import RealModeTrace.Trace.Record

/-!
# File records

What is remembered between file events, and the records that reads and closes make.

* `FileLog`: the names of the open handles and the read that waits for its completion;
* `FileLog.issueRead`, `FileLog.completeRead`: the two halves of a read;
* `FileLog.close`: the record names the handle before it is forgotten.
-/

namespace RealModeTrace

/-- The open handles and the waiting read. -/
structure FileLog where
  handles : HandleTable := .empty
  pending : PendingRead := .none
  deriving DecidableEq, Repr, Inhabited

namespace FileLog

/-- Nothing is open and no read waits. -/
def empty : FileLog := {}

/-- Remember the name of a handle. -/
def record (log : FileLog) (handle : UInt16) (name : String) : FileLog :=
  { log with handles := log.handles.record handle name }

/-- Forget a handle. -/
def forget (log : FileLog) (handle : UInt16) : FileLog :=
  { log with handles := log.handles.forget handle }

/-- A handle is about to be closed. -/
def close (log : FileLog) (handle : UInt16) : FileLog × Payload :=
  (log.forget handle, .fileClose (log.handles.lookup handle) handle)

/-- A read is about to be done. -/
def issueRead (log : FileLog) (request : ReadRequest) : FileLog × Payload :=
  ({ log with pending := log.pending.start request },
    .fileRead (log.handles.lookup request.handle) request)

/-- The data record of a read: the bytes in the buffer, as many as were read and may be shown. -/
def dataPayload (host : Host) (buffer : UInt32) (actual : UInt16) (limit : Nat) : List Payload :=
  let count := min (min limit actual.toNat) dumpCeiling.toNat
  if count = 0 then [] else [.fileData (host.bytes buffer count)]

/-- A read is done. It is reported if it is the one that waits; none waits afterwards. -/
def completeRead (log : FileLog) (host : Host) (handle actual : UInt16) (buffer : UInt32)
    (limit : Nat) : FileLog × List Payload :=
  let (pending, request) := log.pending.complete handle
  ({ log with pending },
    match request with
    | none => []
    | some _ =>
      .fileReadResult (log.handles.lookup handle) handle actual ::
        dataPayload host buffer actual limit)

end FileLog

end RealModeTrace
