import ObjectBoundary.Model.Document
import ObjectBoundary.Tasks.Rank

/-!
# The task model

The declarations of tasks, projects and managers.
-/

namespace ObjectBoundary.TaskModel

def readable (name type : String) : PropertyDecl := { name, type }

def writable (name type : String) : PropertyDecl := { name, type, writable := true }

def method (name returnType : String) (parameters : List ParameterDecl) : MethodDecl :=
  { name, returnType, parameters }

/-- The declaration of an enumeration from the names and numbers of its members. -/
def enumeration {α : Type} (name : String) (number : α → Int64) (named : List (String × α)) :
    EnumDecl :=
  { name, values := named.map fun (member, a) => ⟨member, number a⟩ }

def task : InterfaceDecl where
  name := "ITask"
  properties := [readable "id" "string_t", readable "title" "string_t",
    writable "description" "string_t", writable "priority" "Priority",
    writable "status" "Status", readable "created_at" "string_t",
    writable "due_date" "string_t", writable "tags" "array<string_t>"]
  methods := [method "Complete" "void" [], method "Cancel" "void" [],
    method "IsOverdue" "bool" [], method "GetMetadata" "dict<string_t,string_t>" [],
    method "SetMetadata" "void" [⟨"key", "string_t"⟩, ⟨"value", "string_t"⟩]]

def project : InterfaceDecl where
  name := "IProject"
  properties := [readable "id" "string_t", writable "name" "string_t",
    writable "description" "string_t", writable "active" "bool"]
  methods := [
    method "CreateTask" "ITask" [⟨"title", "string_t"⟩, ⟨"description", "string_t"⟩],
    method "GetTask" "ITask" [⟨"taskId", "string_t"⟩],
    method "GetTasks" "array<ITask>" [],
    method "GetTasksByStatus" "array<ITask>" [⟨"status", "Status"⟩],
    method "DeleteTask" "bool" [⟨"taskId", "string_t"⟩],
    method "GetTaskCount" "int32_t" [],
    method "GetCompletedCount" "int32_t" [],
    method "GetTaskCountByStatus" "dict<Status,int32_t>" []]

def manager : InterfaceDecl where
  name := "ITaskManager"
  methods := [
    method "CreateProject" "IProject" [⟨"name", "string_t"⟩],
    method "GetProject" "IProject" [⟨"projectId", "string_t"⟩],
    method "GetProjects" "array<IProject>" [],
    method "GetActiveProjects" "array<IProject>" [],
    method "DeleteProject" "bool" [⟨"projectId", "string_t"⟩],
    method "SearchTasks" "array<ITask>" [⟨"query", "string_t"⟩],
    method "GetTasksByPriority" "array<ITask>" [⟨"priority", "Priority"⟩],
    method "GetOverdueTasks" "array<ITask>" [],
    method "GetAllTags" "set<string_t>" [],
    method "GetSettings" "dict<string_t,string_t>" [],
    method "UpdateSettings" "void" [⟨"settings", "dict<string_t,string_t>"⟩],
    method "Save" "void" [⟨"path", "string_t"⟩],
    method "Load" "void" [⟨"path", "string_t"⟩]]

def model : Model where
  space := "TaskManager"
  enums := [enumeration "Priority" Priority.number Priority.named,
    enumeration "Status" Status.number Status.named]
  interfaces := [task, project, manager]

end ObjectBoundary.TaskModel
