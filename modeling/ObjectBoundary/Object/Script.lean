import ObjectBoundary.Value

/-!
# Scripted implementations

An implementation of an interface that is described by data: for every member an act that says what
comes of using it. Properties can be stored, and a stored value is read before any act.
-/

namespace ObjectBoundary

/-- What comes of using a member. -/
inductive Act where
  | give (value : Value)
  | refuse (message : String)
  | crash (report : Option String)
  /-- Returns the argument at a position. -/
  | argument (index : Nat)
  /-- Returns an array of all arguments. -/
  | arguments
  /-- Stores the argument at a position as a property and returns nothing. -/
  | store (property : String) (index : Nat)
  deriving Inhabited

namespace Act

def refs : Act → List Ref
  | .give value => value.refs
  | _ => []

/-- The result of an act, and the property that it stores. -/
def run (arguments : List Value) : Act → Except Failure (Value × Option (String × Value))
  | .give value => .ok (value, none)
  | .refuse message => .error (.fault (.domain (.stated message)))
  | .crash report => .error (.crash report)
  | .argument index =>
    match Value.argument arguments index with
    | .ok value => .ok (value, none)
    | .error cause => .error (.fault (.domain cause))
  | .arguments => .ok (.array arguments, none)
  | .store property index =>
    match Value.argument arguments index with
    | .ok value => .ok (.void, some (property, value))
    | .error cause => .error (.fault (.domain cause))

end Act

structure Script where
  /-- The name of the interface, for refusals. -/
  interface : String
  gets : List (String × Act) := []
  sets : List (String × Act) := []
  methods : List (String × Act) := []
  /-- What happens before an object is made. -/
  create : Option Act := none
  deriving Inhabited

namespace Script

/-- The references in the acts of the members. -/
def memberRefs (s : Script) : List Ref :=
  (s.gets ++ s.sets ++ s.methods).flatMap fun (_, act) => act.refs

def refs (s : Script) : List Ref :=
  s.memberRefs ++ (match s.create with
    | some act => act.refs
    | none => [])

end Script

structure Scripted where
  script : Script
  stored : List (String × Value) := []
  deriving Inhabited

namespace Scripted

def refs (s : Scripted) : List Ref :=
  s.script.memberRefs ++ s.stored.flatMap fun (_, value) => value.refs

def put (s : Scripted) (name : String) (value : Value) : Scripted :=
  { s with stored := (name, value) :: s.stored.filter (·.1 ≠ name) }

def unknown {α : Type} (s : Scripted) (member : String) : Except Failure α :=
  .error (.fault (.domain (.unknownMember s.script.interface member)))

/-- A stored value comes before an act. An act without arguments stores nothing. -/
def property (s : Scripted) (name : String) : Except Failure Value :=
  match s.stored.lookup name with
  | some value => .ok value
  | none =>
    match s.script.gets.lookup name with
    | some act => return (← act.run []).1
    | none => s.unknown name

/-- An act takes the place of storing the value. -/
def withProperty (s : Scripted) (name : String) (value : Value) : Except Failure Scripted :=
  match s.script.sets.lookup name with
  | some act => do
    let _ ← act.run []
    return s
  | none => .ok (s.put name value)

def invoke (s : Scripted) (method : String) (arguments : List Value) :
    Except Failure (Value × Scripted) :=
  match s.script.methods.lookup method with
  | some act => do
    let (value, stored) ← act.run arguments
    match stored with
    | some (property, content) => return (value, s.put property content)
    | none => return (value, s)
  | none => s.unknown method

end Scripted

end ObjectBoundary
