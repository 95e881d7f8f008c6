import ObjectBoundary.Calendar.Timestamp
import ObjectBoundary.Files
import ObjectBoundary.Log.Level

/-!
# Log settings

Where log events go and what they look like, and the settings that the environment gives.
-/

namespace ObjectBoundary

inductive LogFormat where
  | pretty
  | compact
  | json
  deriving DecidableEq, Repr, Inhabited

namespace LogFormat

def named : List (String × LogFormat) :=
  [("pretty", .pretty), ("compact", .compact), ("json", .json)]

def name : LogFormat → String
  | .pretty => "pretty"
  | .compact => "compact"
  | .json => "json"

end LogFormat

/-- Where log events go. Files are begun every day and named by a prefix and the date. -/
inductive LogOutput where
  | stdout
  | stderr
  | file (directory fileStart : String)
  deriving DecidableEq, Repr, Inhabited

/-- The path of the file that log events go to at a Unix time. -/
def LogOutput.path? (now : Int) : LogOutput → Option String
  | .file directory fileStart =>
    let day := (Timestamp.date now).text
    some (Files.join directory (if fileStart.isEmpty then day else fileStart ++ "." ++ day))
  | .stdout | .stderr => none

def Files.openLog (files : Files) (now : Int) (output : LogOutput) : Except FileError Files :=
  match output.path? now with
  | some path => files.openToAppend path
  | none => .ok files

structure LogConfig where
  level : Level := .info
  format : LogFormat := .pretty
  output : LogOutput := .stderr
  spanEvents : Bool := false
  filter : Option String := none
  deriving DecidableEq, Repr, Inhabited

/-- The log settings that the environment gives. -/
structure EnvironmentLog where
  level : Level := .warn
  json : Bool := false
  spans : Bool := false
  deriving DecidableEq, Repr, Inhabited

namespace EnvironmentLog

/-- Reads the settings from the variables of the environment. A level that is not known counts as
the default one, and the two switches are on whenever their variables are set. -/
def ofVariables (environment : List (String × String)) : EnvironmentLog :=
  { level := ((environment.lookup "IDLBRIDGE_LOG_LEVEL").bind Level.ofName?).getD .warn
    json := (environment.lookup "IDLBRIDGE_LOG_JSON").isSome
    spans := (environment.lookup "IDLBRIDGE_LOG_SPANS").isSome }

end EnvironmentLog

end ObjectBoundary
