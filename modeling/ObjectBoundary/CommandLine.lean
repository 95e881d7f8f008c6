import ObjectBoundary.Model.Registry
import ObjectBoundary.Settings.Discovery
import ObjectBoundary.Symbol
import ObjectBoundary.Tasks.Model

/-!
# The command line

Checking models and listing their exported symbols. How a run ends, the lines that it prints and the
events that it logs are a function of its arguments and of the files that it can read. Log events go
to an output of their own choosing, which may be one of the streams that the lines are printed to;
they are kept apart here. When an event is written and how it looks is left to the log: a stream
holds the lines of the run in order, and some of the events anywhere between them.
-/

namespace ObjectBoundary.CommandLine

inductive Command where
  | check (files : List String)
  /-- Lists the symbols of a file, or those of the task model. -/
  | symbols (file : Option String)
  deriving DecidableEq, Repr, Inhabited

def Command.words : Command → List String
  | .check files => "check" :: files
  | .symbols file => "symbols" :: file.toList

inductive LogEvent where
  | configured (options : Options)
  | starting (command : Command)
  | checking (file : String)
  | rejected (file cause : String)
  | registered (model : Loaded)
  | factoryRegistered (interface : String)
  | tasksRegistered
  deriving DecidableEq, Repr, Inhabited

namespace LogEvent

def level : LogEvent → Level
  | .rejected .. => .error
  | .configured _ | .checking _ => .info
  | .starting _ | .registered _ | .factoryRegistered _ | .tasksRegistered => .debug

/-- The part of the program that tells it, for filters. -/
def target : LogEvent → String
  | .configured _ | .starting _ | .checking _ | .rejected .. => "idlbridge"
  | .registered _ => "idlbridge_runtime::model"
  | .factoryRegistered _ => "idlbridge_runtime::model::registry"
  | .tasksRegistered => "idlbridge::taskmanager"

def message : LogEvent → String
  | .configured _ => "idlbridge configured"
  | .starting _ => "idlbridge starting"
  | .checking _ => "checking model"
  | .rejected .. => "model rejected"
  | .registered _ => "interface model registered"
  | .factoryRegistered _ => "factory registered"
  | .tasksRegistered => "TaskManager model registered"

def fields : LogEvent → List (String × String)
  | .configured options =>
    [("max_live_handles", Text.decimal options.maxLiveHandles),
      ("trace_calls", toString options.traceCalls)]
  | .starting command => [("command", " ".intercalate command.words)]
  | .checking file => [("file", file)]
  | .rejected file cause => [("file", file), ("error", cause)]
  | .registered model =>
    [("namespace", model.space), ("interfaces", Text.decimal model.interfaces.length),
      ("enums", Text.decimal model.enums.length)]
  | .factoryRegistered interface => [("interface", interface)]
  | .tasksRegistered => []

end LogEvent

/-- How a run ends, and what it prints and logs. -/
structure Outcome where
  status : Nat := 0
  /-- The lines that the run itself prints to its output. -/
  output : List String := []
  errors : List String := []
  events : List LogEvent := []
  /-- The settings of the log that the events go to. -/
  logging : LogConfig := {}
  deriving DecidableEq, Repr, Inhabited

inductive Piece where
  | line (text : String)
  | event (told : LogEvent)
  deriving DecidableEq, Repr, Inhabited

namespace Piece

def line? : Piece → Option String
  | .line text => some text
  | .event _ => none

def event? : Piece → Option LogEvent
  | .line _ => none
  | .event told => some told

end Piece

namespace Outcome

def failure (message : String) : Outcome := { status := 1, errors := [message] }

/-- The end of a run that cannot open its log: a crash, of which the report says no more here than
what has failed. -/
def crash : Outcome := { status := 101, errors := ["initializing rolling file appender failed"] }

/-- Lines as a text, each ended by a line break. -/
def text (lines : List String) : String := String.join (lines.map (· ++ "\n"))

/-- The events that may stand in a stream. -/
def eventsAt (o : Outcome) (stream : LogOutput) : List LogEvent :=
  if o.logging.output = stream then o.events else []

/-- What the two streams hold after a run: its lines in order, and between them the events that the
log has written there. Which ones these are is up to the filter of the log and to its writer, which
drops what it has no room for. -/
structure Leaves (o : Outcome) (output errors : List Piece) : Prop where
  output_lines : output.filterMap Piece.line? = o.output
  error_lines : errors.filterMap Piece.line? = o.errors
  output_events : (output.filterMap Piece.event?).Sublist (o.eventsAt .stdout)
  error_events : (errors.filterMap Piece.event?).Sublist (o.eventsAt .stderr)

end Outcome

structure Invocation where
  command : Command
  settingsFile : Option String
  verbose : Bool
  deriving DecidableEq, Repr, Inhabited

def usage : String :=
  "idlbridge - handle-based boundary bindings for IDL interfaces\n\n" ++
  "USAGE:\n    idlbridge [OPTIONS] <COMMAND>\n\n" ++
  "COMMANDS:\n" ++
  "    check <model.json>...   Validate and register interface models\n" ++
  "    symbols [model.json]    List the C entry points of a model (default: TaskManager)\n\n" ++
  "OPTIONS:\n" ++
  "    -h, --help              Print help information\n" ++
  "    -v, --verbose           Debug logging\n" ++
  "    --config <path>         Use this idlbridge.toml instead of discovering one"

structure Split where
  settingsFile : Option String := none
  verbose : Bool := false
  positional : List String := []

/-- Divides options from other arguments. The last settings file counts. -/
def split (found : Split) : List String → Except String Split
  | [] => .ok found
  | "--config" :: rest =>
    match rest with
    | path :: rest => split { found with settingsFile := some path } rest
    | [] => .error ("--config needs a path\n\n" ++ usage)
  | argument :: rest =>
    if argument = "--help" ∨ argument = "-h" then .error usage
    else if argument = "--verbose" ∨ argument = "-v" then split { found with verbose := true } rest
    else if argument.toList.head? = some '-' then
      .error ("Unknown option: " ++ argument ++ "\n\n" ++ usage)
    else split { found with positional := found.positional ++ [argument] } rest

def command : List String → Except String Command
  | "check" :: files =>
    if files.isEmpty then .error "check: no model files specified" else .ok (.check files)
  | ["symbols"] => .ok (.symbols none)
  | ["symbols", file] => .ok (.symbols (some file))
  | "symbols" :: _ :: extra :: _ => .error ("symbols: unexpected argument '" ++ extra ++ "'")
  | other :: _ => .error ("Unknown command: " ++ other ++ "\n\n" ++ usage)
  | [] => .error usage

def parse (arguments : List String) : Except String Invocation := do
  let found ← split {} arguments
  let command ← command found.positional
  return { command, settingsFile := found.settingsFile, verbose := found.verbose }

def loadModel (read : String → Except FileError String) (r : Registry) (path : String) :
    Except String (Loaded × Registry) :=
  match read path with
  | .error cause => .error ("Error reading " ++ path ++ ": " ++ cause.message)
  | .ok text =>
    match r.loadText text with
    | .error cause => .error (path ++ ": " ++ cause.message)
    | .ok result => .ok result

def accepted (path : String) (loaded : Loaded) : String :=
  let space := if loaded.space.isEmpty then "<none>" else loaded.space
  path ++ ": ok (namespace " ++ space ++ ", " ++ Text.decimal loaded.interfaces.length ++
    " interface(s), " ++ Text.decimal loaded.enums.length ++ " enum(s))"

/-- The files as they read while events are logged: what a path gives after some events. Only a file
that the log is written to depends on them. -/
abbrev View := List LogEvent → String → Except FileError String

structure Report where
  output : List String := []
  errors : List String := []
  /-- All that has been logged so far. -/
  events : List LogEvent := []
  deriving DecidableEq, Repr, Inhabited

/-- Checks files one after another. A file that is rejected leaves nothing in the registry for those
behind it. -/
def checkFiles (view : View) (r : Registry) (logged : List LogEvent) : List String → Report
  | [] => { events := logged }
  | path :: rest =>
    let logged := logged ++ [.checking path]
    match loadModel (view logged) r path with
    | .ok (loaded, r) =>
      let report := checkFiles view r (logged ++ [.registered loaded]) rest
      { report with output := accepted path loaded :: report.output }
    | .error message =>
      let report := checkFiles view r (logged ++ [.rejected path message]) rest
      { report with errors := message :: report.errors }

def check (view : View) (logged : List LogEvent) (files : List String) : Outcome :=
  let report := checkFiles view {} logged files
  if report.errors.isEmpty then { output := report.output, events := report.events }
  else
    { status := 1
      output := report.output
      errors := report.errors ++
        ["\n" ++ Text.decimal report.errors.length ++ " of " ++ Text.decimal files.length ++
          " model(s) rejected"]
      events := report.events }

/-- The prototypes of a registered model, a blank line before each interface. -/
def listing (r : Registry) (loaded : Loaded) : List String :=
  (Symbol.ofSpace loaded.space).map Symbol.prototype ++
    loaded.interfaces.flatMap fun (_, id) =>
      match r.interface? id with
      | some d => "" :: (Symbol.ofInterface r loaded.space d).map Symbol.prototype
      | none => []

def tasksLogged (loaded : Loaded) : List LogEvent :=
  .registered loaded ::
    ["ITask", "IProject", "ITaskManager"].map LogEvent.factoryRegistered ++ [.tasksRegistered]

def symbols (view : View) (logged : List LogEvent) : Option String → Outcome
  | some path =>
    match loadModel (view logged) {} path with
    | .ok (loaded, r) =>
      { output := listing r loaded, events := logged ++ [.registered loaded] }
    | .error message => { Outcome.failure message with events := logged }
  | none =>
    match Registry.load {} TaskModel.model with
    | .ok (loaded, r) => { output := listing r loaded, events := logged ++ tasksLogged loaded }
    | .error cause => { Outcome.failure cause.message with events := logged }

section Preparation

variable (read : String → Except FileError String)

/-- The settings of a run: those of the given file, or of the nearest one. -/
def settings (working : String) (invocation : Invocation) :
    Except SettingsError (Option Settings) :=
  match invocation.settingsFile.or (Settings.discover? read working) with
  | some path => (Settings.load read path).map some
  | none => .ok none

/-- A run whose arguments and settings are in order. -/
structure Ready where
  command : Command
  logging : LogConfig
  /-- The options that are put in force together with the log settings. -/
  options : Option Options
  deriving DecidableEq, Repr, Inhabited

/-- The log settings of a run that has none or that passes them over. -/
def plainLogging (verbose : Bool) : LogConfig :=
  { level := if verbose then .debug else .warn, format := .compact }

/-- Looks at the arguments and the settings of a run. The log settings are passed over in a verbose
run, which has its own. -/
def prepare (working : String) (arguments : List String) : Except String Ready := do
  let invocation ← parse arguments
  let plain : Ready := ⟨invocation.command, plainLogging invocation.verbose, none⟩
  match ← (settings read working invocation).mapError SettingsError.message with
  | none => return plain
  | some found =>
    if invocation.verbose then return plain
    else
      let logging ← found.logging.toConfig.mapError SettingsError.message
      return ⟨invocation.command, logging, some found.options⟩

end Preparation

/-- What a run finds around it. -/
structure Surroundings where
  /-- The path of the working directory. -/
  working : String
  /-- What a path gives before the log is opened. -/
  read : String → Except FileError String
  openLog : LogOutput → Except FileError View

def perform (view : View) (logged : List LogEvent) : Command → Outcome
  | .check files => check view logged files
  | .symbols file => symbols view logged file

def started (ready : Ready) : List LogEvent :=
  (ready.options.map LogEvent.configured).toList ++ [.starting ready.command]

/-- A whole run. The log is opened before the command is carried out. -/
def runIn (around : Surroundings) (arguments : List String) : Outcome :=
  match prepare around.read around.working arguments with
  | .error message => .failure message
  | .ok ready =>
    match around.openLog ready.logging.output with
    | .error _ => .crash
    | .ok view =>
      { perform view (started ready) ready.command with logging := ready.logging }

/-- A tree of files around a run. The log is written there when the run has ended. -/
def Surroundings.ofFiles (files : Files) (now : Int) : Surroundings where
  working := files.workingPath
  read := files.read
  openLog output := (files.openLog now output).map fun opened _ => opened.read

/-- A run in a tree of files, at a Unix time. -/
def run (files : Files) (arguments : List String) (now : Int := 0) : Outcome :=
  runIn (.ofFiles files now) arguments

/-- The files that a run may read. -/
def mentioned (working : String) (arguments : List String) : List String :=
  arguments ++ Settings.candidates working

end ObjectBoundary.CommandLine
