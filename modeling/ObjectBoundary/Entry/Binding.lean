import ObjectBoundary.Dispatch

/-!
# Typed access to the task model

For every property and method of the task model there is an entry point of its own, whose parameters
and result are fixed. It does what the request by name does.
-/

namespace ObjectBoundary

/-- The interfaces of the task model. -/
inductive Role where
  | task
  | project
  | manager
  deriving DecidableEq, Repr, Inhabited

namespace Role

def name : Role → String
  | .task => "ITask"
  | .project => "IProject"
  | .manager => "ITaskManager"

def all : List Role := [.task, .project, .manager]

def id (ids : TaskIds) : Role → InterfaceId
  | .task => ids.task
  | .project => ids.project
  | .manager => ids.manager

end Role

/-- What a typed entry point does with its member. -/
inductive Access where
  | get (kind : Kind)
  | set (kind : Kind)
  /-- Calls a method; without a result the answer is that the call succeeded. -/
  | call (parameters : List Kind) (result : Option Kind)
  deriving DecidableEq, Repr, Inhabited

/-- A typed entry point. -/
structure Binding where
  /-- The name under which it is exported. -/
  symbol : String
  role : Role
  member : String
  access : Access
  deriving DecidableEq, Repr, Inhabited

namespace Binding

/-- The kinds of the arguments after the handle. -/
def parameters (b : Binding) : List Kind :=
  match b.access with
  | .get _ => []
  | .set kind => [kind]
  | .call parameters _ => parameters

/-- The kind of the result; without one the answer is a success flag. -/
def result? (b : Binding) : Option Kind :=
  match b.access with
  | .get kind => some kind
  | .set _ => none
  | .call _ result => result

/-- Runs the entry point. A result has to be of the fixed kind. -/
def run (b : Binding) (handle : Handle) (arguments : List Wire) : Op (Option Wire) := do
  let id := b.role.id (← Op.taskIds)
  match b.access with
  | .get kind => return some (← Op.expectKind kind (← Op.getProperty handle id b.member))
  | .set _ =>
    Op.setProperty handle id b.member (arguments.headD .void)
    return none
  | .call _ (some kind) =>
    return some (← Op.expectKind kind (← Op.invoke handle id b.member arguments))
  | .call _ none =>
    let _ ← Op.invoke handle id b.member arguments
    return none

def ofTask : List Binding :=
  [("ITask_Getid", "id", .get .handle), ("ITask_Gettitle", "title", .get .handle),
    ("ITask_Getdescription", "description", .get .handle),
    ("ITask_Getpriority", "priority", .get .i32), ("ITask_Getstatus", "status", .get .i32),
    ("ITask_Getcreated_at", "created_at", .get .handle),
    ("ITask_Getdue_date", "due_date", .get .handle), ("ITask_Gettags", "tags", .get .handle),
    ("ITask_Setdescription", "description", .set .handle),
    ("ITask_Setpriority", "priority", .set .i32), ("ITask_Setstatus", "status", .set .i32),
    ("ITask_Setdue_date", "due_date", .set .handle), ("ITask_Settags", "tags", .set .handle),
    ("ITask_Complete", "Complete", .call [] none), ("ITask_Cancel", "Cancel", .call [] none),
    ("ITask_IsOverdue", "IsOverdue", .call [] (some .bool)),
    ("ITask_GetMetadata", "GetMetadata", .call [] (some .handle)),
    ("ITask_SetMetadata", "SetMetadata", .call [.handle, .handle] none)].map
      fun (symbol, member, access) => ⟨symbol, .task, member, access⟩

def ofProject : List Binding :=
  [("IProject_Getid", "id", .get .handle), ("IProject_Getname", "name", .get .handle),
    ("IProject_Getdescription", "description", .get .handle),
    ("IProject_Getactive", "active", .get .bool), ("IProject_Setname", "name", .set .handle),
    ("IProject_Setdescription", "description", .set .handle),
    ("IProject_Setactive", "active", .set .bool),
    ("IProject_CreateTask", "CreateTask", .call [.handle, .handle] (some .handle)),
    ("IProject_GetTask", "GetTask", .call [.handle] (some .handle)),
    ("IProject_GetTasks", "GetTasks", .call [] (some .handle)),
    ("IProject_GetTasksByStatus", "GetTasksByStatus", .call [.i32] (some .handle)),
    ("IProject_DeleteTask", "DeleteTask", .call [.handle] (some .bool)),
    ("IProject_GetTaskCount", "GetTaskCount", .call [] (some .i32)),
    ("IProject_GetCompletedCount", "GetCompletedCount", .call [] (some .i32)),
    ("IProject_GetTaskCountByStatus", "GetTaskCountByStatus", .call [] (some .handle))].map
      fun (symbol, member, access) => ⟨symbol, .project, member, access⟩

def ofManager : List Binding :=
  [("ITaskManager_CreateProject", "CreateProject", .call [.handle] (some .handle)),
    ("ITaskManager_GetProject", "GetProject", .call [.handle] (some .handle)),
    ("ITaskManager_GetProjects", "GetProjects", .call [] (some .handle)),
    ("ITaskManager_GetActiveProjects", "GetActiveProjects", .call [] (some .handle)),
    ("ITaskManager_DeleteProject", "DeleteProject", .call [.handle] (some .bool)),
    ("ITaskManager_SearchTasks", "SearchTasks", .call [.handle] (some .handle)),
    ("ITaskManager_GetTasksByPriority", "GetTasksByPriority", .call [.i32] (some .handle)),
    ("ITaskManager_GetOverdueTasks", "GetOverdueTasks", .call [] (some .handle)),
    ("ITaskManager_GetAllTags", "GetAllTags", .call [] (some .handle)),
    ("ITaskManager_GetSettings", "GetSettings", .call [] (some .handle)),
    ("ITaskManager_UpdateSettings", "UpdateSettings", .call [.handle] none),
    ("ITaskManager_Save", "Save", .call [.handle] none),
    ("ITaskManager_Load", "Load", .call [.handle] none)].map
      fun (symbol, member, access) => ⟨symbol, .manager, member, access⟩

def all : List Binding := ofTask ++ ofProject ++ ofManager

end Binding

/-!
## Tags without an array

Four entry points reach the tags of a task one at a time. They work only on tasks that are
implemented here.
-/

namespace Op

def nativeTask (handle : Handle) : Op (Ref × Task) := do
  let ids ← taskIds
  let ref ← resolve handle (some (.interface ids.task))
  match (← get).heap.task? ref with
  | some t => return (ref, t)
  | none => fail (.typeMismatch "native ITask" "foreign implementation")

def tagCount (handle : Handle) : Op Nat := do
  let (_, t) ← nativeTask handle
  return t.tags.length

/-- A new string with the tag at a position. -/
def tagItem (handle : Handle) (index : Nat) : Op Handle := do
  let (_, t) ← nativeTask handle
  match t.tags[index]? with
  | some tag => issueText tag
  | none => fail (.indexOutOfBounds index t.tags.length)

def clearTags (handle : Handle) : Op Unit := do
  let (ref, t) ← nativeTask handle
  replace ref (.task { t with tags := [] })

def addTag (handle value : Handle) : Op Unit := do
  let (ref, t) ← nativeTask handle
  replace ref (.task (t.addTag (← readText value)))

end Op

end ObjectBoundary
