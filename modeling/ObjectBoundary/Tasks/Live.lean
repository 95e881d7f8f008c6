import ObjectBoundary.Calendar.Timestamp
import ObjectBoundary.Tasks.Ids
import ObjectBoundary.Tasks.Registration
import ObjectBoundary.Tasks.View

/-!
# Live projects and managers

The operations of projects and managers that create, remove, save and load what they list. The lists
own one reference to each thing in them.
-/

namespace ObjectBoundary

namespace Op

def today : Op Date := return Timestamp.date (← get).now

def newTask (ids : TaskIds) (task : Task) : Op Ref := create (.interface ids.task) (.task task)

def newProject (ids : TaskIds) (project : Project Ref) : Op Ref :=
  create (.interface ids.project) (.project project)

end Op

namespace Project

open Op

def createTask (self : Ref) (p : Project Ref) (title description : String) : Op Ref := do
  if !isNamed title then fail (.domain .emptyTaskTitle)
  let ids ← nativeIds
  let id ← freshTaskId
  let createdAt := Timestamp.text (← get).now
  let ref ← newTask ids { id, title, description, createdAt }
  replace self (.project { p with tasks := p.tasks ++ [ref] })
  return ref

/-- Removes the task with an id; the answer says whether there was one. -/
def deleteTask (self : Ref) (p : Project Ref) (id : String) : Op Bool := do
  match (← get).heap.taskWithId? p id with
  | some (ref, _) =>
    replace self (.project { p with tasks := p.tasks.erase ref })
    return true
  | none => return false

/-- A count as a value; the greatest 32-bit number stands for all greater counts. -/
def countValue (n : Nat) : Value := .i32 (Int32.ofNat (min n 2147483647))

def objectArray {α : Type} (items : List (Ref × α)) : Value :=
  .array (items.map fun (ref, _) => .object ref)

def invoke (self : Ref) (p : Project Ref) (method : String) (arguments : List Value) :
    Op Value := do
  let heap := (← get).heap
  let text (index : Nat) : Op String := consent do (← Value.argument arguments index).asText
  match method with
  | "CreateTask" =>
    let title ← text 0
    let description ← text 1
    return .object (← p.createTask self title description)
  | "GetTask" =>
    let id ← text 0
    match heap.taskWithId? p id with
    | some (ref, _) => return .object ref
    | none => fail (.domain (.taskNotFound id))
  | "GetTasks" => return objectArray (heap.tasksOf p)
  | "GetTasksByStatus" =>
    let status ← consent do Status.ofValue (← Value.argument arguments 0)
    return objectArray ((heap.tasksOf p).filter (·.2.status == status))
  | "DeleteTask" => return .bool (← p.deleteTask self (← text 0))
  | "GetTaskCount" => return countValue p.tasks.length
  | "GetCompletedCount" => return countValue (heap.countWith p .completed)
  | "GetTaskCountByStatus" =>
    return .dict (Status.all.map fun s => (s.toValue, countValue (heap.countWith p s)))
  | name => fail (.domain (.unknownMember "IProject" name))

/-- A live project with the content of a saved one. All its objects are new. -/
def restore (ids : TaskIds) (p : Project Task) : Op Ref := do
  let tasks ← p.tasks.mapM fun task => do
    modify (·.observeId task.id)
    newTask ids task
  modify (·.observeId p.id)
  newProject ids
    { id := p.id, name := p.name, description := p.description, active := p.active, tasks }

end Project

namespace Manager

open Op

def createProject (self : Ref) (m : Manager Ref) (name : String) : Op Ref := do
  if !Project.isNamed name then fail (.domain .emptyProjectName)
  let ids ← nativeIds
  let id ← freshProjectId
  let ref ← newProject ids { id, name }
  replace self (.manager { m with projects := m.projects ++ [ref] })
  return ref

def deleteProject (self : Ref) (m : Manager Ref) (id : String) : Op Bool := do
  match (← get).heap.projectWithId? m id with
  | some (ref, _) =>
    replace self (.manager { m with projects := m.projects.erase ref })
    return true
  | none => return false

def save (m : Manager Ref) (path : String) : Op Unit := do
  let s ← get
  match s.files.write path (Manager.print (s.heap.archive m)) with
  | .ok files => set { s with files }
  | .error cause => fail (.domain (.saveFailed path cause.message))

/-- Replaces settings and projects by the content of a file. -/
def load (self : Ref) (path : String) : Op Unit := do
  let text ←
    match (← get).files.read path with
    | .ok text => pure text
    | .error cause => fail (.domain (.loadFailed path cause.message))
  let archive ← consent (Manager.parse path text)
  let ids ← nativeIds
  let projects ← archive.projects.mapM (Project.restore ids)
  replace self (.manager { settings := archive.settings, projects })

/-- The entries of a dictionary of texts. -/
def textEntries (value : Value) : Except Refusal (List (String × String)) := do
  (← value.asDict).mapM fun (key, value) => do return (← key.asText, ← value.asText)

def invoke (self : Ref) (m : Manager Ref) (method : String) (arguments : List Value) :
    Op Value := do
  let heap := (← get).heap
  let text (index : Nat) : Op String := consent do (← Value.argument arguments index).asText
  match method with
  | "CreateProject" => return .object (← m.createProject self (← text 0))
  | "GetProject" =>
    let id ← text 0
    match heap.projectWithId? m id with
    | some (ref, _) => return .object ref
    | none => fail (.domain (.projectNotFound id))
  | "GetProjects" => return Project.objectArray (heap.projectsOf m)
  | "GetActiveProjects" => return Project.objectArray ((heap.projectsOf m).filter (·.2.active))
  | "DeleteProject" => return .bool (← m.deleteProject self (← text 0))
  | "SearchTasks" => return Project.objectArray (heap.search m (← text 0))
  | "GetTasksByPriority" =>
    let priority ← consent do Priority.ofValue (← Value.argument arguments 0)
    return Project.objectArray ((heap.allTasks m).filter (·.2.priority == priority))
  | "GetOverdueTasks" =>
    let day ← today
    return Project.objectArray ((heap.allTasks m).filter (·.2.isOverdueOn day))
  | "GetAllTags" => return .set ((heap.allTags m).map .str)
  | "GetSettings" => return Task.dictOf m.settings
  | "UpdateSettings" =>
    let updates ← consent (textEntries (arguments.headD .void))
    replace self (.manager { m with settings := m.settings.extend updates })
    return .void
  | "Save" =>
    m.save (← text 0)
    return .void
  | "Load" =>
    Manager.load self (← text 0)
    return .void
  | name => fail (.domain (.unknownMember "ITaskManager" name))

end Manager

end ObjectBoundary
