import ObjectBoundary.Tasks.Task

/-!
# Projects and managers

A project lists tasks and a manager lists projects. While they are live the lists hold references;
in a saved file they hold the listed things themselves, so both are generic in what they list.
-/

namespace ObjectBoundary

structure Project (τ : Type) where
  id : String
  name : String
  description : String := ""
  active : Bool := true
  tasks : List τ := []
  deriving DecidableEq, Repr, Inhabited

structure Manager (π : Type) where
  settings : TextMap := .empty
  projects : List π := []
  deriving DecidableEq, Repr, Inhabited

/-- The whole content of a manager, as it is saved. -/
abbrev Archive := Manager (Project Task)

namespace Project

variable {τ : Type}

def property (p : Project τ) : String → Except Refusal Value
  | "id" => .ok (.str p.id)
  | "name" => .ok (.str p.name)
  | "description" => .ok (.str p.description)
  | "active" => .ok (.bool p.active)
  | name => .error (.unknownMember "IProject" name)

def withProperty (p : Project τ) (name : String) (value : Value) : Except Refusal (Project τ) :=
  match name with
  | "name" => return { p with name := ← value.asText }
  | "description" => return { p with description := ← value.asText }
  | "active" => return { p with active := ← value.asBool }
  | name => throw (.unknownMember "IProject" name)

/-- A title or a name is more than blanks. -/
def isNamed (text : String) : Bool := !(Text.trim text).isEmpty

end Project

end ObjectBoundary
