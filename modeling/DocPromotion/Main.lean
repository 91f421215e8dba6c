import DocPromotion.CommandLine

/-!
The program.  Files are read right before they are treated and written right after.
-/

namespace DocPromotion

/-- A text as bytes. -/
def textBytes (t : Text) : ByteArray := ⟨t.toArray⟩

/-- A path as the system needs it. -/
def systemPath (path : Text) : String := path.toString?.getD ""

/-- The contents of a file. -/
def readPath (path : Text) : IO (Except FileError Text) := do
  try
    let bytes ← IO.FS.readBinFile (systemPath path)
    return .ok bytes.toList
  catch
    | .noFileOrDirectory .. => return .error (.missing path)
    | .inappropriateType .. => return .error (.isDirectory path)
    | e => return .error (.unreadable path (Text.ofString (toString e)))

/-- Treats files one after the other, and gives the exit status. -/
def treatAll (job : Job) (out err : IO.FS.Stream) : List Text → IO Nat
  | [] => return 0
  | path :: paths => do
    let t := job.treat path (← readPath path)
    err.write (textBytes (logText job.verbose t.records))
    out.write (textBytes t.printed)
    if let some contents := t.written then
      IO.FS.writeBinFile (systemPath path) (textBytes contents)
    return max t.status (← treatAll job out err paths)

/-- Runs the program on the files of the system, and gives the exit status. -/
def runOnSystem (args : List Text) : IO Nat := do
  let out ← IO.getStdout
  let err ← IO.getStderr
  match Invocation.ofArgs args with
  | .error refusal =>
    err.write (textBytes refusal.message)
    return refusal.status
  | .ok i =>
    let config ← if i.config.isEmpty then pure (.ok []) else readPath i.config
    match i.settings fun _ => config with
    | .error e =>
      err.write (textBytes (logText i.verbose [i.failureRecord e]))
      return 1
    | .ok s =>
      err.write (textBytes (logText i.verbose (i.preamble s)))
      treatAll (i.job s) out err i.names

end DocPromotion

/-- Runs the program with the arguments of the command line. -/
def main (args : List String) : IO UInt32 := do
  return (← DocPromotion.runOnSystem (args.map DocPromotion.Text.ofString)).toUInt32
