import ObjectBoundary.Text.Piece

/-!
# Files

A tree of files and directories, a working directory in it, and the reading and writing of whole
files by a written path. A written path is a list of names divided by slashes; `.` and an empty name
stay in a directory, and `..` leaves it.
-/

namespace ObjectBoundary

inductive Node where
  /-- A file; `none` when its bytes are not text. -/
  | file (text : Option String)
  | directory
  deriving DecidableEq, Repr, Inhabited

inductive FileError where
  | notFound
  | notDirectory
  | isDirectory
  | nameTooLong
  | nulInName
  | notText
  deriving DecidableEq, Repr, Inhabited

namespace FileError

def message : FileError → String
  | .notFound => "No such file or directory (os error 2)"
  | .notDirectory => "Not a directory (os error 20)"
  | .isDirectory => "Is a directory (os error 21)"
  | .nameTooLong => "File name too long (os error 36)"
  | .nulInName => "file name contained an unexpected NUL byte"
  | .notText => "stream did not contain valid UTF-8"

end FileError

structure Files where
  /-- What stands at each place below the root. -/
  nodes : List (List String × Node) := []
  /-- The directory in which a path without a leading slash begins. -/
  working : List String := []
  deriving Repr, Inhabited

namespace Files

def workingPath (files : Files) : String := "/" ++ "/".intercalate files.working

def names (path : String) : List String :=
  (Text.splitAt '/' path.toList).map String.ofList

/-- A path inside a directory. A path that begins with a slash stands for itself. -/
def join (directory path : String) : String :=
  if path.toList.head? = some '/' then path
  else if directory.isEmpty || directory.toList.getLast? = some '/' then directory ++ path
  else directory ++ "/" ++ path

/-- What stands at a place. The root is a directory. -/
def node? (files : Files) (place : List String) : Option Node :=
  if place.isEmpty then some .directory else files.nodes.lookup place

/-- The longest name of a file, in bytes. -/
def longestName : Nat := 255

/-- The longest written path, in bytes. -/
def longestPath : Nat := 4095

def enter (files : Files) (place : List String) : List String → Except FileError (List String)
  | [] => .ok place
  | name :: rest =>
    if name = "" ∨ name = "." then files.enter place rest
    else if name = ".." then files.enter place.dropLast rest
    else if name.utf8ByteSize > longestName then .error .nameTooLong
    else
      match files.node? (place ++ [name]) with
      | some .directory => files.enter (place ++ [name]) rest
      | some (.file _) => .error .notDirectory
      | none => .error .notFound

/-- Whether a name, as the last of a path, can only be that of a directory. -/
def isDirectoryName (name : String) : Bool := name = "" || name = "." || name = ".."

def start (files : Files) (path : String) : List String :=
  if path.toList.head? = some '/' then [] else files.working

/-- Refuses the paths that no file can have. -/
def checkPath (path : String) : Except FileError Unit :=
  if path.contains '\x00' then .error .nulInName
  else if path.isEmpty then .error .notFound
  else if path.utf8ByteSize > longestPath then .error .nameTooLong
  else .ok ()

def read (files : Files) (path : String) : Except FileError String := do
  checkPath path
  let names := names path
  let directory ← files.enter (files.start path) names.dropLast
  match names.getLast? with
  | none => throw .notFound
  | some last =>
    if isDirectoryName last then throw .isDirectory
    else if last.utf8ByteSize > longestName then throw .nameTooLong
    else
      match files.node? (directory ++ [last]) with
      | none => throw .notFound
      | some .directory => throw .isDirectory
      | some (.file none) => throw .notText
      | some (.file (some text)) => return text

/-- Puts a node at a place, instead of what stood there. -/
def put (files : Files) (place : List String) (node : Node) : Files :=
  { files with nodes := (place, node) :: files.nodes.filter (·.1 ≠ place) }

/-- Writes the file at a written path. A path that ends in a slash names no file to write. -/
def write (files : Files) (path text : String) : Except FileError Files := do
  checkPath path
  let all := names path
  let names := (all.reverse.dropWhile (· = "")).reverse
  let directory ← files.enter (files.start path) names.dropLast
  match names.getLast? with
  | none => throw .isDirectory
  | some last =>
    if isDirectoryName last ∨ names.length < all.length then throw .isDirectory
    else if last.utf8ByteSize > longestName then throw .nameTooLong
    else
      match files.node? (directory ++ [last]) with
      | some .directory => throw .isDirectory
      | _ => return files.put (directory ++ [last]) (.file (some text))

/-- The place that a written path names, without a look at what stands there. -/
def placeOf (files : Files) (path : String) : List String :=
  (names path).foldl (fun place name =>
    if name = "" ∨ name = "." then place
    else if name = ".." then place.dropLast
    else place ++ [name]) (files.start path)

/-- Makes a directory at every place from `upper` down that has nothing. -/
def makeDirectories (files : Files) (upper : List String) : List String → Files
  | [] => files
  | name :: rest =>
    let directory := upper ++ [name]
    let files := if (files.node? directory).isSome then files else files.put directory .directory
    files.makeDirectories directory rest

/-- Goes from name to name and makes each directory that is missing on the way. -/
def makeMissing (files : Files) (place : List String) : List String → Except FileError Files
  | [] => .ok files
  | name :: rest =>
    if name = "" ∨ name = "." then files.makeMissing place rest
    else if name = ".." then files.makeMissing place.dropLast rest
    else if name.utf8ByteSize > longestName then .error .nameTooLong
    else
      let place := place ++ [name]
      match files.node? place with
      | some .directory => files.makeMissing place rest
      | some (.file _) => .error .notDirectory
      | none => (files.put place .directory).makeMissing place rest

/-- Begins an empty file at a written path. A file that is there already stays as it is. -/
def touch (files : Files) (path : String) : Except FileError Files :=
  match files.read path with
  | .ok _ | .error .notText => .ok files
  | .error _ => files.write path ""

/-- Opens a file to be written at its end. When that fails, the directories that are missing above
it are made first. -/
def openToAppend (files : Files) (path : String) : Except FileError Files :=
  match files.touch path with
  | .ok files => .ok files
  | .error _ => do
    let files ← files.makeMissing (files.start path) (names path).dropLast
    files.touch path

/-- Puts a node at a written path and makes the directories above it. -/
def place (files : Files) (path : String) (node : Node) : Files :=
  let target := files.placeOf path
  (files.makeDirectories [] target.dropLast).put target node

end Files

end ObjectBoundary
