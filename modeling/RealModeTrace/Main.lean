import RealModeTrace.Cli.Replay
import RealModeTrace.Cli.Inspect
import RealModeTrace.Cli.Usage

/-!
# The program

All decisions are made elsewhere. What stands here reads the files that a command line names into a
`FileTree`, takes the clock readings of a replay, and stores what the command left.
-/

namespace RealModeTrace

/-- The absolute path of a location. -/
def absolutePath (loc : Location) : String :=
  "/" ++ "/".intercalate loc

/-- The tree with what is stored at a location: a directory as such, and any other file with its
bytes if those are wanted. -/
def learnPlace (wanted : Bool) (t : FileTree) (loc : Location) : IO FileTree := do
  if (t.node? loc).isSome then return t
  try
    let path ← IO.FS.realPath (absolutePath loc)
    if ← path.isDir then return t.addDirectory loc
    else
      let bytes ← if wanted then IO.FS.readBinFile path else pure .empty
      return t.add loc (.file bytes)
  catch _ => return t

/-- The tree with the places that a path goes through, and the file at its end if that is to be
read. -/
def learnPath (toRead : Bool) (t : FileTree) (path : String) : IO FileTree := do
  let places := t.stations path
  let t ← places.dropLast.foldlM (learnPlace false) t
  match places.getLast? with
  | some loc =>
    if toRead then learnPlace true t loc
    else
      let there ← learnPlace false t loc
      return if there.isDirectory loc then there else t
  | none => return t

/-- The tree at the start: the working directory and the devices. -/
def startingTree : IO FileTree := do
  let here := (← IO.currentDir).toString
  let t : FileTree := {}
  let t := { t with workDir := t.locationOf here }
  return ((t.addDirectory t.workDir).add ["dev", "full"] (.device .full)).add ["dev", "null"]
    (.device .null)

/-- Store the files that were not there before or have changed. -/
def storeFiles (before after : FileTree) : IO Unit :=
  after.entries.forM fun
    | (loc, .file bytes) =>
      unless before.holds loc bytes do IO.FS.writeBinFile (absolutePath loc) bytes
    | _ => pure ()

/-- A reading of a clock that never goes back. -/
def clockReading : IO Duration := do
  return ⟨← IO.monoNanosNow⟩

/-- The readings for one call, which takes three at most. -/
def clockReadings : IO Readings := do
  let taken ← (List.range 3).mapM fun _ => clockReading
  return ⟨fun n => taken.getD n default⟩

/-- Replay a script with the clock of the machine that this runs on. -/
def runReplay (t : FileTree) (invocation : Cli.Invocation) (options : Cli.ReplayOptions) :
    IO (FileTree × Cli.Outcome) := do
  let t ← learnPath true t options.script
  match Cli.prepare t invocation.config options with
  | .error failure => return (t, ⟨{ files := t }, .error failure⟩)
  | .ok (config, events) =>
    let t ← match config.logTarget with
      | .console => pure t
      | .file path => learnPath false t path
    let name := Cli.sessionName (← IO.getRandomBytes 16).toList
    let r ← events.foldlM (fun (r : Cli.Replay) event => return r.feed (← clockReadings) event)
      (Cli.Replay.start config { files := t } (← clockReading))
    return (t, r.finish (← clockReading) events.length invocation options.script name)

/-- Run a command. -/
def runInvocation (invocation : Cli.Invocation) : IO UInt32 := do
  let t ← startingTree
  let t ← match invocation.config with
    | some path => learnPath true t path
    | none => pure t
  let (before, o) ← match invocation.command with
    | .replay options => runReplay t invocation options
    | .config defaults => pure (t, Cli.inspect { files := t } invocation defaults)
  IO.print o.output
  storeFiles before o.world.files
  IO.eprint (o.errorOutput invocation.quiet)
  return o.exitCode

end RealModeTrace

/-- Run the command that the arguments name. -/
def main (args : List String) : IO UInt32 := do
  match RealModeTrace.Cli.Invocation.ofArguments args with
  | .ok invocation => RealModeTrace.runInvocation invocation
  | .error stop =>
    if stop = .misuse then IO.eprint stop.text else IO.print stop.text
    return stop.exitCode
