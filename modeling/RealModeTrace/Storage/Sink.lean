import RealModeTrace.LogTarget
import RealModeTrace.Storage.FileTree
import RealModeTrace.Text.Search

/-!
# Sinks

A sink takes trace lines, one at a time, each with its line end: the console, a file that the tracer
opened, or a capture in memory. What the sinks have taken is in the `World` that they write to.

* `Sink.openTarget`: the sink for a log target; a file that cannot be opened is replaced by the
  console, and the error is given beside it;
* `LogStream`: an open file behind its buffer, as far as the writing of texts goes;
* `Sink.writeLine`: one line, which is in the file as soon as it is written;
* `Sink.close`: what is left to say about a file whose last bytes could not be stored.
-/

namespace RealModeTrace

/-- Where lines can go: the files, the lines on the console, and the captured lines. -/
structure World where
  files : FileTree := {}
  console : Array String := #[]
  captured : Array String := #[]

/-- The text on the console. -/
def World.consoleText (w : World) : String :=
  w.console.foldl (fun text line => text ++ line ++ "\n") ""

/-- The captured lines, and the world in which none is left. -/
def World.takeCaptured (w : World) : List String × World :=
  (w.captured.toList, { w with captured := #[] })

/-- How many captured lines a text occurs in. -/
def World.countCaptured (w : World) (needle : String) : Nat :=
  w.captured.toList.countP (Text.occursIn needle)

/-- A log file could not be opened. -/
structure OpenError where
  path : String
  cause : FileError
  deriving DecidableEq, Repr

/-- The wording of an open error. -/
def OpenError.message (e : OpenError) : String :=
  "cannot open log file '" ++ e.path ++ "': " ++ e.cause.message

/-- An open file and what waits in the buffer before it. -/
structure LogStream where
  files : FileTree
  loc : Location
  buffer : String := ""

namespace LogStream

/-- The capacity of the buffer in bytes. -/
def capacity : Nat := 8192

/-- Hand the buffer to the file. What the file refuses stays in the buffer. -/
def flush (s : LogStream) : LogStream × Option FileError :=
  if s.buffer = "" then (s, none)
  else match s.files.append s.loc (Text.utf8 s.buffer) with
    | .ok files => ({ s with files, buffer := "" }, none)
    | .error cause => (s, some cause)

/-- Take a text for which there is room: one that would fill the buffer by itself goes past it. -/
def take (s : LogStream) (text : String) : LogStream × Option FileError :=
  if text.utf8ByteSize < capacity then ({ s with buffer := s.buffer ++ text }, none)
  else match s.files.append s.loc (Text.utf8 text) with
    | .ok files => ({ s with files }, none)
    | .error cause => (s, some cause)

/-- Go on with a stream unless there was an error. -/
def andThen (r : LogStream × Option FileError) (next : LogStream → LogStream × Option FileError) :
    LogStream × Option FileError :=
  match r with
  | (s, none) => next s
  | (s, some cause) => (s, some cause)

/-- Write a text. If there is no room for it, the buffer is handed to the file first. -/
def write (s : LogStream) (text : String) : LogStream × Option FileError :=
  if s.buffer.utf8ByteSize + text.utf8ByteSize ≤ capacity then s.take text
  else andThen s.flush (·.take text)

/-- Write a line and its line end, and hand all of it to the file. -/
def writeLine (s : LogStream) (line : String) : LogStream × Option FileError :=
  andThen (andThen (s.write line) (·.write "\n")) flush

end LogStream

/-- The destination of trace lines. -/
inductive Sink
  | console
  /-- An open file, with what it refused and still waits in its buffer, and why. -/
  | file (loc : Location) (refused : Option (String × FileError))
  | capture
  deriving DecidableEq, Repr

namespace Sink

/-- The sink for a log target, the world after opening it, and why it is not the file. -/
def openTarget (target : LogTarget) (w : World) : Sink × World × Option OpenError :=
  match target with
  | .console => (.console, w, none)
  | .file path =>
    match w.files.create path with
    | .ok (loc, files) => (.file loc none, { w with files }, none)
    | .error cause => (.console, w, some ⟨path, cause⟩)

/-- The tracer opened this sink and closes it. -/
def ownsStream : Sink → Bool
  | .file _ _ => true
  | _ => false

/-- The sink is the console. -/
def isConsole : Sink → Bool
  | .console => true
  | _ => false

/-- The sink of a stream after it was written to: whatever is still in the buffer was refused. -/
def ofStream (s : LogStream) (error : Option FileError) : Sink :=
  .file s.loc (if s.buffer = "" then none else error.map (s.buffer, ·))

/-- Write one line and its line end. What a file refuses waits in the buffer, if it came there, and
goes before the next line. -/
def writeLine (sink : Sink) (w : World) (line : String) : Sink × World × Option FileError :=
  match sink with
  | .console => (.console, { w with console := w.console.push line }, none)
  | .capture => (.capture, { w with captured := w.captured.push line }, none)
  | .file loc refused =>
    let (s, error) := LogStream.writeLine ⟨w.files, loc, (refused.map Prod.fst).getD ""⟩ line
    (ofStream s error, { w with files := s.files }, error)

/-- Close the sink. What waits in the buffer is handed to the file once more, which refuses it for
the same reason. -/
def close (sink : Sink) : Option FileError :=
  match sink with
  | .file _ refused => refused.map Prod.snd
  | _ => none

end Sink

end RealModeTrace
