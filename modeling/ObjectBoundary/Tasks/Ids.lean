import ObjectBoundary.State
import ObjectBoundary.Text.Piece

/-!
# Generated ids

Tasks and projects without an id of their own get one from a counter. Ids that come from a file push
the counter past them.
-/

namespace ObjectBoundary

namespace IdCounter

/-- The counter after the number of an id has been seen. A suffix that is no number, or one beyond
64 bits, is passed over; the greatest number leaves no greater one. -/
def observe (counter : UInt64) (suffix : List Char) : UInt64 :=
  match Text.unsigned? suffix with
  | some n =>
    if n < UInt64.size then max counter (min (n + 1) (UInt64.size - 1)).toUInt64 else counter
  | none => counter

end IdCounter

namespace State

/-- Keeps generated ids clear of an id. -/
def observeId (s : State) (id : String) : State :=
  match Text.dropStart? "task-".toList id.toList with
  | some suffix => { s with nextTask := IdCounter.observe s.nextTask suffix }
  | none =>
    match Text.dropStart? "proj-".toList id.toList with
    | some suffix => { s with nextProject := IdCounter.observe s.nextProject suffix }
    | none => s

end State

namespace Op

def freshTaskId : Op String :=
  modifyGet fun s =>
    ("task-" ++ Text.decimal s.nextTask.toNat, { s with nextTask := s.nextTask + 1 })

def freshProjectId : Op String :=
  modifyGet fun s =>
    ("proj-" ++ Text.decimal s.nextProject.toNat, { s with nextProject := s.nextProject + 1 })

end Op

end ObjectBoundary
