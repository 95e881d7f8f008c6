import ObjectBoundary.CommandLine

/-!
# The program

Reads the files that a run may need, opens its log, and writes what the run prints and logs. Events
are written as plain lines when the run has ended, those that the level of the log admits.
-/

namespace ObjectBoundary

def FileError.ofFailure : IO.Error → FileError
  | .inappropriateType _ code _ => if code = 20 then .notDirectory else .isDirectory
  | .illegalOperation _ _ => .isDirectory
  | _ => .notFound

def readWhole (path : String) : IO (Except FileError String) := do
  match ← (IO.FS.readBinFile path).toBaseIO with
  | .ok bytes =>
    match String.fromUTF8? bytes with
    | some text => return .ok text
    | none => return .error .notText
  | .error failure => return .error (.ofFailure failure)

/-- Reads some files ahead, and gives the reader that knows them. -/
def readAhead (paths : List String) : IO (String → Except FileError String) := do
  let contents ← paths.mapM fun path => return (path, ← readWhole path)
  return fun path => (contents.lookup path).getD (.error .notFound)

/-- The Unix time, which is that of a file that has just been made. -/
def unixTime : IO Int := do
  let (_, path) ← IO.FS.createTempFile
  let metadata ← path.metadata
  IO.FS.removeFile path
  return metadata.modified.sec

/-- Opens a file to be written at its end. When that fails, the directories above it are made
first. -/
def openToAppend (path : String) : IO IO.FS.Handle := do
  let file := (← IO.currentDir) / path
  try IO.FS.Handle.mk file .append
  catch _ =>
    if let some directory := file.parent then IO.FS.createDirAll directory
    IO.FS.Handle.mk file .append

/-- Opens an output for log events, and gives what writes to it. -/
def openLog (output : LogOutput) : IO (String → IO Unit) := do
  match output, output.path? (← unixTime) with
  | _, some path => return (← openToAppend path).putStr
  | .stdout, none => return (← IO.getStdout).putStr
  | _, none => return (← IO.getStderr).putStr

def CommandLine.LogEvent.line (event : LogEvent) : String :=
  let fields := event.fields.map fun (name, text) => " " ++ name ++ "=" ++ text
  event.level.name ++ " " ++ event.target ++ ": " ++ event.message ++ String.join fields ++ "\n"

end ObjectBoundary

open ObjectBoundary in
def main (arguments : List String) : IO UInt32 := do
  let working := (← IO.currentDir).toString
  let paths := CommandLine.mentioned working arguments
  let read ← readAhead paths
  -- The run is pure, so the log that it asks for is opened ahead of it.
  let log : Except FileError (String → IO Unit) ←
    match CommandLine.prepare read working arguments with
    | .error _ => pure (.error .notFound)
    | .ok ready =>
      match ← (openLog ready.logging.output).toBaseIO with
      | .ok write => pure (.ok write)
      | .error failure => pure (.error (.ofFailure failure))
  let opened ← readAhead paths
  let around : CommandLine.Surroundings :=
    { working, read, openLog := fun _ => log.map fun _ _ => opened }
  let outcome := CommandLine.runIn around arguments
  (← IO.getStdout).putStr (CommandLine.Outcome.text outcome.output)
  (← IO.getStderr).putStr (CommandLine.Outcome.text outcome.errors)
  if let .ok write := log then
    for event in outcome.events do
      if outcome.logging.level.admits event.level then write event.line
  return outcome.status.toUInt32
