import ObjectBoundary.Handle.Basic

/-!
# Failures

Everything that can go wrong behind the boundary, by its cause. A `Refusal` is a business rule that
an implementation enforces, a `BadArgument` a request that does not fit the declared interface, and
a `Fault` is what a caller is told: a numeric code and a message that begins with the code's name.
-/

namespace ObjectBoundary

/-- A rule of an implementation that a request runs against. -/
inductive Refusal where
  | expected (wanted found : String)
  | missingArgument (index : Nat)
  | unknownMember (interface member : String)
  | notPriority (value : Int)
  | notStatus (value : Int)
  | completeCancelled
  | cancelCompleted
  | invalidDueDate (text : String)
  | emptyTaskTitle
  | emptyProjectName
  | taskNotFound (id : String)
  | projectNotFound (id : String)
  | saveFailed (path cause : String)
  | loadFailed (path cause : String)
  | invalidData (path detail : String)
  | unsupportedVersion (version newest : Nat)
  | returned (found declared : String)
  | notCollectionType
  | undeclared (name : String)
  | stated (message : String)
  deriving DecidableEq, Repr, Inhabited

namespace Refusal

def message : Refusal → String
  | .expected wanted found => s!"expected {wanted} value, found {found}"
  | .missingArgument index => s!"missing argument {index}"
  | .unknownMember interface member => s!"{interface} has no member '{member}'"
  | .notPriority value => s!"{value} is not a Priority"
  | .notStatus value => s!"{value} is not a Status"
  | .completeCancelled => "Cannot complete a cancelled task"
  | .cancelCompleted => "Cannot cancel a completed task"
  | .invalidDueDate text => s!"Invalid due date '{text}', expected YYYY-MM-DD"
  | .emptyTaskTitle => "Task title must not be empty"
  | .emptyProjectName => "Project name must not be empty"
  | .taskNotFound id => s!"Task not found: {id}"
  | .projectNotFound id => s!"Project not found: {id}"
  | .saveFailed path cause => s!"Failed to save {path}: {cause}"
  | .loadFailed path cause => s!"Failed to load {path}: {cause}"
  | .invalidData path detail => s!"Invalid task data in {path}: {detail}"
  | .unsupportedVersion version newest =>
    s!"Unsupported task data version {version} (newest supported is {newest})"
  | .returned found declared => s!"implementation returned {found} where {declared} was declared"
  | .notCollectionType => "declared type is not a collection"
  | .undeclared name => s!"model does not declare {name}"
  | .stated message => message

end Refusal

/-- A request that does not fit what is declared. -/
inductive BadArgument where
  | nullText (what : String)
  | notText (what : String)
  | interiorNul (position : Nat)
  | sealed (kind : String)
  | unknownTag (tag : Nat)
  | wrongKind (expected type found : String)
  | unexpectedTag (tag : Nat)
  | unregistered (label : String)
  | noMember (interface kind name : String)
  | readOnly (interface name : String)
  | arity (interface name : String) (expected given : Nat)
  | unknownInterface (name : String)
  | noFactory (interface : String)
  | notKey (kind : String)
  | nullOutput
  | nullArguments
  | stated (message : String)
  deriving DecidableEq, Repr, Inhabited

namespace BadArgument

def message : BadArgument → String
  | .nullText what => s!"Null {what}"
  | .notText what => s!"{what} is not valid UTF-8"
  | .interiorNul position => s!"string contains an interior NUL at byte {position}"
  | .sealed kind => s!"{kind} snapshot is read-only"
  | .unknownTag tag => s!"unknown value tag {tag}"
  | .wrongKind expected type found => s!"expected {expected} value for {type}, found {found}"
  | .unexpectedTag tag => s!"unexpected boundary value tag {tag}"
  | .unregistered label => s!"unregistered {label}"
  | .noMember interface kind name => s!"{interface} has no {kind} '{name}'"
  | .readOnly interface name => s!"property {interface}.{name} is read-only"
  | .arity interface name expected given =>
    s!"{interface}.{name} expects {expected} argument(s), got {given}"
  | .unknownInterface name => s!"unknown interface '{name}'"
  | .noFactory interface => s!"no factory registered for {interface}"
  | .notKey kind => s!"{kind} cannot be a dictionary key"
  | .nullOutput => "Null output pointer"
  | .nullArguments => "Null argument array"
  | .stated message => message

end BadArgument

/-- The numeric classes of failures. -/
inductive ErrorCode where
  | none
  | invalidHandle
  | typeMismatch
  | invalidEnumValue
  | indexOutOfBounds
  | domainFailure
  | doubleRelease
  | invalidArgument
  | handleLimit
  deriving DecidableEq, Repr, Inhabited

namespace ErrorCode

def number : ErrorCode → Nat
  | .none => 0
  | .invalidHandle => 1
  | .typeMismatch => 2
  | .invalidEnumValue => 3
  | .indexOutOfBounds => 4
  | .domainFailure => 5
  | .doubleRelease => 6
  | .invalidArgument => 7
  | .handleLimit => 8

/-- The name with which every message of the class begins. -/
def name : ErrorCode → String
  | .none => "None"
  | .invalidHandle => "InvalidHandle"
  | .typeMismatch => "TypeMismatch"
  | .invalidEnumValue => "InvalidEnumValue"
  | .indexOutOfBounds => "IndexOutOfBounds"
  | .domainFailure => "DomainFailure"
  | .doubleRelease => "DoubleRelease"
  | .invalidArgument => "InvalidArgument"
  | .handleLimit => "HandleLimit"

end ErrorCode

/-- What a caller of the boundary is told. -/
inductive Fault where
  | nullHandle
  | unknownHandle (handle : Handle)
  | staleHandle (handle : Handle)
  | objectDestroyed (object : Nat)
  | typeMismatch (expected found : String)
  | invalidEnumValue (enumeration : String) (value : Int)
  | indexOutOfBounds (index count : Nat)
  | domain (cause : Refusal)
  | crash (report : String)
  | doubleRelease (handle : Handle)
  | overRelease (object : Nat)
  | invalidArgument (cause : BadArgument)
  | handleLimit (limit : Nat)
  deriving DecidableEq, Repr, Inhabited

namespace Fault

def code : Fault → ErrorCode
  | .nullHandle | .unknownHandle _ | .staleHandle _ | .objectDestroyed _ => .invalidHandle
  | .typeMismatch _ _ => .typeMismatch
  | .invalidEnumValue _ _ => .invalidEnumValue
  | .indexOutOfBounds _ _ => .indexOutOfBounds
  | .domain _ | .crash _ => .domainFailure
  | .doubleRelease _ | .overRelease _ => .doubleRelease
  | .invalidArgument _ => .invalidArgument
  | .handleLimit _ => .handleLimit

/-- The message without the name of the code. -/
def detail : Fault → String
  | .nullHandle => "Null handle"
  | .unknownHandle handle => s!"handle {handle.spelling} was never issued"
  | .staleHandle handle => s!"handle {handle.spelling} has already been released"
  | .objectDestroyed object => s!"object #{object} has been destroyed"
  | .typeMismatch expected found => s!"expected {expected}, found {found}"
  | .invalidEnumValue enumeration value =>
    s!"{value} is not a declared enumerator of {enumeration}"
  | .indexOutOfBounds index count => s!"index {index} out of bounds for collection of {count}"
  | .domain cause => cause.message
  | .crash report => s!"native implementation panicked: {report}"
  | .doubleRelease handle => s!"handle {handle.spelling} released twice"
  | .overRelease object => s!"object #{object} released more times than it was referenced"
  | .invalidArgument cause => cause.message
  | .handleLimit limit => s!"live handle limit of {limit} reached"

/-- The whole message: the name of the code, a colon and the detail. -/
def message (fault : Fault) : String := fault.code.name ++ ": " ++ fault.detail

end Fault

/-- How a request ends that does not succeed: with a fault, or with a crash of an implementation,
whose report is not always a text. -/
inductive Failure where
  | fault (cause : Fault)
  | crash (report : Option String)
  deriving DecidableEq, Repr, Inhabited

namespace Failure

def toFault : Failure → Fault
  | .fault cause => cause
  | .crash (some report) => .crash report
  | .crash none => .crash "unknown panic payload"

def isCrash : Failure → Bool
  | .fault _ => false
  | .crash _ => true

end Failure

end ObjectBoundary
