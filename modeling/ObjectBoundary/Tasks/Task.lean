import ObjectBoundary.Calendar.Parse
import ObjectBoundary.Tasks.Rank
import ObjectBoundary.Text.Lowercase
import ObjectBoundary.Text.Map
import ObjectBoundary.Text.Piece

/-!
# Tasks

A task with its business rules. Members are reached by their declared names; a refused request
leaves the task as it was.
-/

namespace ObjectBoundary

structure Task where
  id : String
  title : String
  description : String := ""
  priority : Priority := .medium
  status : Status := .todo
  createdAt : String
  dueDate : String := ""
  tags : List String := []
  metadata : TextMap := .empty
  deriving DecidableEq, Repr, Inhabited

namespace Task

/-- A cancelled task cannot be completed. -/
def complete (t : Task) : Except Refusal Task :=
  if t.status = .cancelled then .error .completeCancelled
  else .ok { t with status := .completed }

/-- A completed task cannot be cancelled. -/
def cancel (t : Task) : Except Refusal Task :=
  if t.status = .completed then .error .cancelCompleted
  else .ok { t with status := .cancelled }

/-- An open task is overdue once its due date lies before the day. -/
def isOverdueOn (t : Task) (today : Date) : Bool :=
  !t.status.isClosed && Date.isPast t.dueDate today

/-- Whether a text occurs in the lower-case form of the title, the description or a tag. -/
def isMatch (t : Task) (needle : String) : Bool :=
  Text.contains (Text.lowercase t.title) needle ||
    Text.contains (Text.lowercase t.description) needle ||
    t.tags.any fun tag => Text.contains (Text.lowercase tag) needle

/-- A due date is empty or a text that gives a date. -/
def checkDueDate (text : String) : Except Refusal String :=
  if text.isEmpty || (Date.parse? text).isSome then .ok text
  else .error (.invalidDueDate text)

def addTag (t : Task) (tag : String) : Task := { t with tags := t.tags ++ [tag] }

def property (t : Task) : String → Except Refusal Value
  | "id" => .ok (.str t.id)
  | "title" => .ok (.str t.title)
  | "description" => .ok (.str t.description)
  | "priority" => .ok t.priority.toValue
  | "status" => .ok t.status.toValue
  | "created_at" => .ok (.str t.createdAt)
  | "due_date" => .ok (.str t.dueDate)
  | "tags" => .ok (.array (t.tags.map .str))
  | name => .error (.unknownMember "ITask" name)

def withProperty (t : Task) (name : String) (value : Value) : Except Refusal Task :=
  match name with
  | "description" => return { t with description := ← value.asText }
  | "priority" => return { t with priority := ← Priority.ofValue value }
  | "status" => return { t with status := ← Status.ofValue value }
  | "due_date" => return { t with dueDate := ← checkDueDate (← value.asText) }
  | "tags" => return { t with tags := ← (← value.asArray).mapM Value.asText }
  | name => throw (.unknownMember "ITask" name)

def dictOf (map : TextMap) : Value :=
  .dict (map.entries.map fun (key, value) => (.str key, .str value))

def invoke (t : Task) (today : Date) (method : String) (arguments : List Value) :
    Except Refusal (Value × Task) :=
  match method with
  | "Complete" => return (.void, ← t.complete)
  | "Cancel" => return (.void, ← t.cancel)
  | "IsOverdue" => return (.bool (t.isOverdueOn today), t)
  | "GetMetadata" => return (dictOf t.metadata, t)
  | "SetMetadata" => do
    let key ← (← Value.argument arguments 0).asText
    let value ← (← Value.argument arguments 1).asText
    return (.void, { t with metadata := t.metadata.insert key value })
  | name => throw (.unknownMember "ITask" name)

end Task

end ObjectBoundary
