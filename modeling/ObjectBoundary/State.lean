import ObjectBoundary.Files
import ObjectBoundary.Handle.Table
import ObjectBoundary.Model.Registry
import ObjectBoundary.Object.Heap

/-!
# The state behind the boundary

Everything that one request leaves behind for the next one, and the requests themselves: an
operation reads and changes the state and ends with a result or a failure. What it changed before it
failed stays changed.
-/

namespace ObjectBoundary

structure Options where
  /-- The most handles that may be live at once; zero is no limit. -/
  maxLiveHandles : Nat := 0
  /-- Whether every call is traced. -/
  traceCalls : Bool := false
  deriving DecidableEq, Repr, Inhabited

structure Counters where
  calls : Nat := 0
  failedCalls : Nat := 0
  handlesIssued : Nat := 0
  handlesReleased : Nat := 0
  doubleReleases : Nat := 0
  crashes : Nat := 0
  deriving DecidableEq, Repr, Inhabited

/-- How the last call of a thread ended. -/
structure LastError where
  code : ErrorCode := .none
  message : String := ""
  deriving DecidableEq, Repr, Inhabited

namespace LastError

/-- The record of a fault. A NUL in the message is spelled out, so that the message can be lent as a
text that ends at the first NUL. -/
def ofFault (fault : Fault) : LastError :=
  { code := fault.code
    message := String.ofList (fault.message.toList.flatMap fun c =>
      if c = '\x00' then ['\\', '0'] else [c]) }

end LastError

/-- What makes the objects of an interface. -/
inductive Factory where
  | task
  | project
  | manager
  | scripted (script : Script)
  deriving Inhabited

namespace Factory

def refs : Factory → List Ref
  | .scripted script => script.refs
  | _ => []

end Factory

/-- The places of the declarations of the task model. -/
structure TaskIds where
  task : InterfaceId
  project : InterfaceId
  manager : InterfaceId
  priority : EnumId
  status : EnumId
  deriving DecidableEq, Repr, Inhabited

/-- Which log sinks have been set up. -/
structure LogState where
  /-- Whether logging was set up from the environment. -/
  initialized : Bool := false
  /-- Whether events have a receiver. -/
  subscribed : Bool := false
  deriving DecidableEq, Repr, Inhabited

structure State where
  heap : Heap := {}
  handles : HandleTable := {}
  registry : Registry := {}
  factories : List (InterfaceId × Factory) := []
  /-- Where the task model is registered, once it is. -/
  taskIds : Option TaskIds := none
  nextTask : UInt64 := 1
  nextProject : UInt64 := 1
  options : Options := {}
  counters : Counters := {}
  /-- The last error of each thread. -/
  lastErrors : Nat → LastError := fun _ => {}
  files : Files := {}
  /-- The Unix time. -/
  now : Int := 0
  log : LogState := {}
  deriving Inhabited

/-- A request on the state. -/
abbrev Op (α : Type) := ExceptT Failure (StateM State) α

namespace Op

def fail {α : Type} (fault : Fault) : Op α := throw (.fault fault)

def invalid {α : Type} (cause : BadArgument) : Op α := fail (.invalidArgument cause)

/-- A step that can fail with a fault. -/
def check {α : Type} : Except Fault α → Op α
  | .ok a => pure a
  | .error fault => fail fault

def consent {α : Type} : Except Refusal α → Op α
  | .ok a => pure a
  | .error cause => fail (.domain cause)

def attempt {α : Type} : Except Failure α → Op α
  | .ok a => pure a
  | .error failure => throw failure

def onHeap (change : Heap → Heap) : Op Unit := modify fun s => { s with heap := change s.heap }

def onCounters (change : Counters → Counters) : Op Unit :=
  modify fun s => { s with counters := change s.counters }

def create (tag : Tag) (payload : Payload) : Op Ref :=
  modifyGet fun s =>
    let (ref, heap) := s.heap.create tag payload
    (ref, { s with heap })

def payload (ref : Ref) : Op Payload := do
  match (← get).heap.payload? ref with
  | some payload => return payload
  | none => fail (.objectDestroyed ref.number)

def replace (ref : Ref) (payload : Payload) : Op Unit := onHeap (·.replace ref payload)

end Op

namespace State

def run {α : Type} (s : State) (op : Op α) : Except Failure α × State := StateT.run op.run s

end State

end ObjectBoundary
