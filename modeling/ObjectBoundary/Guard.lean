import ObjectBoundary.State

/-!
# The guard of the boundary

Every call ends in exactly one way: a success clears the last error of the calling thread, and a
failure is recorded there and answered by a sentinel. A crash of an implementation does not pass the
boundary.
-/

namespace ObjectBoundary.State

def setLastError (s : State) (thread : Nat) (e : LastError) : State :=
  { s with lastErrors := fun t => if t = thread then e else s.lastErrors t }

def recordFailure (s : State) (thread : Nat) (failure : Failure) : State :=
  { s with
    counters :=
      { s.counters with
        failedCalls := s.counters.failedCalls + 1
        crashes := if failure.isCrash then s.counters.crashes + 1 else s.counters.crashes }
  }.setLastError thread (.ofFault failure.toFault)

def countCall (s : State) : State :=
  { s with counters := { s.counters with calls := s.counters.calls + 1 } }

/-- Runs a request as a call of a thread. -/
def guarded {α : Type} (s : State) (thread : Nat) (sentinel : α) (body : Op α) : α × State :=
  match s.countCall.run body with
  | (.ok result, s) => (result, s.setLastError thread {})
  | (.error failure, s) => (sentinel, s.recordFailure thread failure)

end ObjectBoundary.State
