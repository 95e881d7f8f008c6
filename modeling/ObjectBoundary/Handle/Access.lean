import ObjectBoundary.State
import ObjectBoundary.Wire

/-!
# Handles to managed objects

The handle table and the reference counts move together: issuing a handle takes a reference to its
object, releasing it gives the reference back.
-/

namespace ObjectBoundary.Op

/-- The fault that a caller sees for an error of the table. -/
def tableFault (registry : Registry) : HandleError → Fault
  | .null => .nullHandle
  | .unknown handle => .unknownHandle handle
  | .stale handle => .staleHandle handle
  | .releasedTwice handle => .doubleRelease handle
  | .mismatch expected found =>
    .typeMismatch (registry.tagName expected) (registry.tagName found)
  | .limit limit => .handleLimit limit

def resolve (handle : Handle) (expected : Option Tag) : Op Ref := do
  let s ← get
  match s.handles.resolve handle expected with
  | .ok ref => return ref
  | .error cause => fail (tableFault s.registry cause)

/-- Binds an object to a new handle. An object that no one else refers to does not outlive the
refusal of its handle. -/
def issue (ref : Ref) : Op Handle := do
  let s ← get
  match s.handles.issue s.options.maxLiveHandles ref with
  | .ok (handle, handles) =>
    set { s with handles, heap := s.heap.retain ref }
    onCounters fun c => { c with handlesIssued := c.handlesIssued + 1 }
    return handle
  | .error cause =>
    onHeap (·.collect ref)
    fail (tableFault s.registry cause)

/-- Ends a handle; the answer is the number of references that remain. -/
def release (handle : Handle) (expected : Option Tag) : Op Nat := do
  let s ← get
  match s.handles.release handle expected with
  | .ok (ref, handles) =>
    set { s with handles, heap := s.heap.release ref }
    onCounters fun c => { c with handlesReleased := c.handlesReleased + 1 }
    return s.heap.count ref - 1
  | .error cause =>
    match cause with
    | .releasedTwice _ => onCounters fun c => { c with doubleReleases := c.doubleReleases + 1 }
    | _ => pure ()
    fail (tableFault s.registry cause)

def duplicate (handle : Handle) (expected : Option Tag) : Op Handle := do
  issue (← resolve handle expected)

def refcount (handle : Handle) (expected : Option Tag) : Op Nat := do
  let ref ← resolve handle expected
  return (← get).heap.count ref

def issueNew (tag : Tag) (payload : Payload) : Op Handle := do
  issue (← create tag payload)

/-- Gives back the handle in a value that does not reach the caller. -/
def discard (w : Wire) : Op Unit := do
  match w.handle? with
  | some handle =>
    try
      let _ ← release handle none
      pure ()
    catch _ => pure ()
  | none => pure ()

end ObjectBoundary.Op
