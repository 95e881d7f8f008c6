import ObjectBoundary.Files
import ObjectBoundary.Log.Config
import ObjectBoundary.Log.Directive
import ObjectBoundary.State
import ObjectBoundary.Toml.Reader

/-!
# Settings files

The settings of a host, read from a TOML document. Every setting has a default, and settings that
are not known are passed over. A table may also be written as an array of its settings in their
order.
-/

namespace ObjectBoundary

inductive OutputKind where
  | stdout
  | stderr
  | file
  deriving DecidableEq, Repr, Inhabited

namespace OutputKind

def named : List (String × OutputKind) :=
  [("stdout", .stdout), ("stderr", .stderr), ("file", .file)]

def name : OutputKind → String
  | .stdout => "stdout"
  | .stderr => "stderr"
  | .file => "file"

end OutputKind

structure LogSettings where
  level : String := "info"
  format : LogFormat := .pretty
  output : OutputKind := .stderr
  directory : String := "logs"
  fileStart : String := "idlbridge"
  spanEvents : Bool := false
  filter : Option String := none
  deriving DecidableEq, Repr, Inhabited

structure Settings where
  logging : LogSettings := {}
  options : Options := {}
  deriving DecidableEq, Repr, Inhabited

inductive SettingsError where
  | unreadable (path : String) (cause : FileError)
  | malformed
  | invalidLevel (text : String)
  | invalidFilter (directives : List String)
  deriving DecidableEq, Repr, Inhabited

namespace SettingsError

def message : SettingsError → String
  | .unreadable path cause => s!"Failed to read config {path}: {cause.message}"
  | .malformed => "Failed to parse config: malformed document"
  | .invalidLevel text => s!"Invalid log level '{text}'"
  | .invalidFilter directives =>
    "Invalid filter directive(s): " ++ ", ".intercalate directives

end SettingsError

namespace Toml

/-- The values of named settings: those of a table, or the items of an array in order. A date or a
time counts as a table without any of them. -/
def fieldsOf? (names : List String) : Toml → Option (List (Option Toml))
  | .inline entries | .table _ entries => some (names.map fun name => entries.lookup name)
  | .array items => some ((List.range names.length).map (items[·]?))
  | .tables items =>
    some ((List.range names.length).map fun i => (items[i]?).map (.table .header))
  | .moment => some (names.map fun _ => none)
  | _ => none

def asText? : Toml → Option String
  | .text s => some s
  | _ => none

def asBool? : Toml → Option Bool
  | .bool b => some b
  | _ => none

def asCount? : Toml → Option Nat
  | .integer n => if 0 ≤ n then some n.toNat else none
  | _ => none

def isEmptyContainer : Toml → Bool
  | .array items => items.isEmpty
  | .inline entries | .table _ entries => entries.isEmpty
  | .tables items => items.isEmpty
  | _ => false

/-- One of a list of names: its own text, or a table whose only entry has that name and holds
nothing. -/
def asVariant? {α : Type} (variants : List (String × α)) : Toml → Option α
  | .text name => variants.lookup name
  | .inline [(name, content)] | .table _ [(name, content)] =>
    if content.isEmptyContainer then variants.lookup name else none
  | _ => none

def optional? {α : Type} (default : α) (decode : Toml → Option α) : Option Toml → Option α
  | some content => decode content
  | none => some default

end Toml

namespace LogSettings

def ofToml? (toml : Toml) : Option LogSettings := do
  let standard : LogSettings := {}
  let names := ["level", "format", "output", "directory", "prefix", "span_events", "filter"]
  match ← toml.fieldsOf? names with
  | [level, format, output, directory, fileStart, spanEvents, filter] =>
    let level ← Toml.optional? standard.level Toml.asText? level
    let format ← Toml.optional? standard.format (Toml.asVariant? LogFormat.named) format
    let output ← Toml.optional? standard.output (Toml.asVariant? OutputKind.named) output
    let directory ← Toml.optional? standard.directory Toml.asText? directory
    let fileStart ← Toml.optional? standard.fileStart Toml.asText? fileStart
    let spanEvents ← Toml.optional? standard.spanEvents Toml.asBool? spanEvents
    let filter ← Toml.optional? standard.filter (fun t => t.asText?.map some) filter
    return { level, format, output, directory, fileStart, spanEvents, filter }
  | _ => none

/-- The log settings in force, when level and filter are valid. -/
def toConfig (s : LogSettings) : Except SettingsError LogConfig := do
  let level ←
    match Level.parse? s.level with
    | some level => pure level
    | none => throw (.invalidLevel s.level)
  let invalid := (s.filter.map Directive.invalid).getD []
  if !invalid.isEmpty then throw (.invalidFilter invalid)
  let output : LogOutput :=
    match s.output with
    | .stdout => .stdout
    | .stderr => .stderr
    | .file => .file s.directory s.fileStart
  return { level, format := s.format, output, spanEvents := s.spanEvents, filter := s.filter }

end LogSettings

namespace Options

def ofToml? (toml : Toml) : Option Options := do
  match ← toml.fieldsOf? ["max_live_handles", "trace_calls"] with
  | [maxLiveHandles, traceCalls] =>
    let maxLiveHandles ← Toml.optional? 0 Toml.asCount? maxLiveHandles
    let traceCalls ← Toml.optional? false Toml.asBool? traceCalls
    return { maxLiveHandles, traceCalls }
  | _ => none

end Options

namespace Settings

def ofEntries? (entries : Toml.Entries) : Option Settings := do
  let logging ← Toml.optional? {} LogSettings.ofToml? (entries.lookup "logging")
  let options ← Toml.optional? {} Options.ofToml? (entries.lookup "runtime")
  return { logging, options }

def parse (text : String) : Except SettingsError Settings :=
  match (Toml.parse? text).bind ofEntries? with
  | some settings => .ok settings
  | none => .error .malformed

/-- Reads a settings file through a reader of files. -/
def load (read : String → Except FileError String) (path : String) :
    Except SettingsError Settings :=
  match read path with
  | .ok text => parse text
  | .error cause => .error (.unreadable path cause)

end Settings

namespace State

def configure (s : State) (options : Options) : State := { s with options }

/-- Takes over options and log settings and opens the output for log events. The answer says whether
log events have got a receiver by this; one that they had before stays. A log file that cannot be
opened is a crash, after which there is no new receiver and the options are in force. -/
def applySettings (s : State) (settings : Settings) : Except SettingsError (Bool × State) := do
  let config ← settings.logging.toConfig
  let s := s.configure settings.options
  match s.files.openLog s.now config.output with
  | .ok files =>
    return (!s.log.subscribed, { s with files, log := { s.log with subscribed := true } })
  | .error _ => return (false, s)

end State

end ObjectBoundary
