import ObjectBoundary.Handle.Access
import ObjectBoundary.Proofs.Run

/-!
# What the requests on handles do

Resolving changes nothing. Giving out a handle and ending one change the table, the count of the
object and the counters, and nothing else.
-/

namespace ObjectBoundary.State

open Op (tableFault)

theorem run_resolve (s : State) (h : Handle) (expected : Option Tag) :
    s.run (Op.resolve h expected) =
      match s.handles.resolve h expected with
      | .ok ref => (.ok ref, s)
      | .error cause => (.error (.fault (tableFault s.registry cause)), s) := by
  unfold Op.resolve
  simp only [run_bind, run_get]
  cases s.handles.resolve h expected <;> rfl

def granted (s : State) (ref : Ref) (handles : HandleTable) : State :=
  { s with
    handles
    heap := s.heap.retain ref
    counters := { s.counters with handlesIssued := s.counters.handlesIssued + 1 } }

theorem run_issue (s : State) (ref : Ref) :
    s.run (Op.issue ref) =
      match s.handles.issue s.options.maxLiveHandles ref with
      | .ok (h, handles) => (.ok h, s.granted ref handles)
      | .error cause =>
        (.error (.fault (tableFault s.registry cause)), { s with heap := s.heap.collect ref }) := by
  unfold Op.issue
  simp only [run_bind, run_get]
  cases s.handles.issue s.options.maxLiveHandles ref <;> rfl

def revoked (s : State) (ref : Ref) (handles : HandleTable) : State :=
  { s with
    handles
    heap := s.heap.release ref
    counters := { s.counters with handlesReleased := s.counters.handlesReleased + 1 } }

def noticed (s : State) : HandleError → State
  | .releasedTwice _ =>
    { s with counters := { s.counters with doubleReleases := s.counters.doubleReleases + 1 } }
  | _ => s

theorem run_release (s : State) (h : Handle) (expected : Option Tag) :
    s.run (Op.release h expected) =
      match s.handles.release h expected with
      | .ok (ref, handles) => (.ok (s.heap.count ref - 1), s.revoked ref handles)
      | .error cause => (.error (.fault (tableFault s.registry cause)), s.noticed cause) := by
  unfold Op.release
  simp only [run_bind, run_get]
  cases s.handles.release h expected with
  | ok found => rfl
  | error cause => cases cause <;> rfl

theorem run_duplicate (s : State) (h : Handle) (expected : Option Tag) :
    s.run (Op.duplicate h expected) =
      match s.handles.resolve h expected with
      | .ok ref => s.run (Op.issue ref)
      | .error cause => (.error (.fault (tableFault s.registry cause)), s) := by
  unfold Op.duplicate
  rw [run_bind, run_resolve]
  cases s.handles.resolve h expected <;> rfl

theorem run_refcount (s : State) (h : Handle) (expected : Option Tag) :
    s.run (Op.refcount h expected) =
      match s.handles.resolve h expected with
      | .ok ref => (.ok (s.heap.count ref), s)
      | .error cause => (.error (.fault (tableFault s.registry cause)), s) := by
  unfold Op.refcount
  rw [run_bind, run_resolve]
  cases s.handles.resolve h expected <;> rfl

@[simp] theorem handles_noticed (s : State) (e : HandleError) :
    (s.noticed e).handles = s.handles := by
  cases e <;> rfl

end ObjectBoundary.State
