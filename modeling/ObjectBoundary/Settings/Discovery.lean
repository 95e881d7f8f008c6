import ObjectBoundary.Files
import ObjectBoundary.Settings.Basic

/-!
# Finding a settings file

A settings file has a fixed name; it is looked for in a directory and then in each directory above
it. Paths are handled as they are written: the one that is found is the written directory with the
name added.
-/

namespace ObjectBoundary.Settings

def fileName : String := "idlbridge.toml"

/-- A reversed path without the slashes and the single dots at its end. -/
def trimEnd : List Char → List Char
  | ['/'] => ['/']
  | '/' :: rest => trimEnd rest
  | '.' :: rest =>
    match rest with
    | '/' :: _ => trimEnd rest
    | _ => '.' :: rest
  | cs => cs

/-- The path of the directory above; the root has none. -/
def parent? (path : String) : Option String :=
  match trimEnd path.toList.reverse with
  | [] | ['/'] => none
  | cs => some (String.ofList (trimEnd (cs.dropWhile (· ≠ '/'))).reverse)

/-- A path and the paths of the directories above it, at most `limit` of these. -/
def ancestors (limit : Nat) (path : String) : List String :=
  match limit with
  | 0 => [path]
  | limit + 1 =>
    match parent? path with
    | some upper => path :: ancestors limit upper
    | none => [path]

/-- Where a settings file may be, the nearest place first. -/
def candidates (start : String) : List String :=
  (ancestors start.length start).map (Files.join · fileName)

def isFile (read : String → Except FileError String) (path : String) : Bool :=
  match read path with
  | .ok _ | .error .notText => true
  | .error _ => false

def discover? (read : String → Except FileError String) (start : String) : Option String :=
  (candidates start).find? (isFile read)

end ObjectBoundary.Settings
