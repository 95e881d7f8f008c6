import ObjectBoundary.Value

/-!
# Priorities and statuses

The two enumerations of the task model, with their numbers and their names.
-/

namespace ObjectBoundary

inductive Priority where
  | low
  | medium
  | high
  | critical
  deriving DecidableEq, Repr, Inhabited

namespace Priority

/-- Every priority with its name, in the order of the numbers. -/
def named : List (String × Priority) :=
  [("LOW", .low), ("MEDIUM", .medium), ("HIGH", .high), ("CRITICAL", .critical)]

def number : Priority → Int64
  | .low => 0
  | .medium => 1
  | .high => 2
  | .critical => 3

def ofNumber? (n : Int64) : Option Priority :=
  if n = 0 then some .low
  else if n = 1 then some .medium
  else if n = 2 then some .high
  else if n = 3 then some .critical
  else none

def name : Priority → String
  | .low => "LOW"
  | .medium => "MEDIUM"
  | .high => "HIGH"
  | .critical => "CRITICAL"

def toValue (p : Priority) : Value := .enumerator p.number

def ofValue (value : Value) : Except Refusal Priority := do
  let n ← value.asEnumerator
  match ofNumber? n with
  | some p => return p
  | none => throw (.notPriority n.toInt)

end Priority

inductive Status where
  | todo
  | inProgress
  | completed
  | cancelled
  deriving DecidableEq, Repr, Inhabited

namespace Status

def named : List (String × Status) :=
  [("TODO", .todo), ("IN_PROGRESS", .inProgress), ("COMPLETED", .completed),
    ("CANCELLED", .cancelled)]

def all : List Status := [.todo, .inProgress, .completed, .cancelled]

def number : Status → Int64
  | .todo => 0
  | .inProgress => 1
  | .completed => 2
  | .cancelled => 3

def ofNumber? (n : Int64) : Option Status :=
  if n = 0 then some .todo
  else if n = 1 then some .inProgress
  else if n = 2 then some .completed
  else if n = 3 then some .cancelled
  else none

def name : Status → String
  | .todo => "TODO"
  | .inProgress => "IN_PROGRESS"
  | .completed => "COMPLETED"
  | .cancelled => "CANCELLED"

def toValue (s : Status) : Value := .enumerator s.number

def ofValue (value : Value) : Except Refusal Status := do
  let n ← value.asEnumerator
  match ofNumber? n with
  | some s => return s
  | none => throw (.notStatus n.toInt)

/-- A closed task is completed or cancelled. -/
def isClosed : Status → Bool
  | .completed | .cancelled => true
  | _ => false

end Status

end ObjectBoundary
