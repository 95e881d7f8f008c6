import ObjectBoundary.Proofs.Run
import ObjectBoundary.Tasks.Registration

/-!
# The registered task model

What registration makes of the declarations of the task model: the places they get in a registry
that was empty, and their descriptors with every type resolved.
-/

namespace ObjectBoundary

namespace TaskModel

def ids : TaskIds := ⟨⟨0⟩, ⟨1⟩, ⟨2⟩, ⟨0⟩, ⟨1⟩⟩

def taskDescriptor : InterfaceDescriptor where
  id := ids.task
  name := "ITask"
  properties := [⟨"id", .string, true⟩, ⟨"title", .string, true⟩, ⟨"description", .string, false⟩,
    ⟨"priority", .enumeration ids.priority, false⟩, ⟨"status", .enumeration ids.status, false⟩,
    ⟨"created_at", .string, true⟩, ⟨"due_date", .string, false⟩, ⟨"tags", .array .string, false⟩]
  methods := [⟨"Complete", [], .void⟩, ⟨"Cancel", [], .void⟩, ⟨"IsOverdue", [], .bool⟩,
    ⟨"GetMetadata", [], .dict .string .string⟩,
    ⟨"SetMetadata", [⟨"key", .string⟩, ⟨"value", .string⟩], .void⟩]

def projectDescriptor : InterfaceDescriptor where
  id := ids.project
  name := "IProject"
  properties := [⟨"id", .string, true⟩, ⟨"name", .string, false⟩, ⟨"description", .string, false⟩,
    ⟨"active", .bool, false⟩]
  methods := [
    ⟨"CreateTask", [⟨"title", .string⟩, ⟨"description", .string⟩], .interface ids.task⟩,
    ⟨"GetTask", [⟨"taskId", .string⟩], .interface ids.task⟩,
    ⟨"GetTasks", [], .array (.interface ids.task)⟩,
    ⟨"GetTasksByStatus", [⟨"status", .enumeration ids.status⟩], .array (.interface ids.task)⟩,
    ⟨"DeleteTask", [⟨"taskId", .string⟩], .bool⟩,
    ⟨"GetTaskCount", [], .i32⟩,
    ⟨"GetCompletedCount", [], .i32⟩,
    ⟨"GetTaskCountByStatus", [], .dict (.enumeration ids.status) .i32⟩]

def managerDescriptor : InterfaceDescriptor where
  id := ids.manager
  name := "ITaskManager"
  properties := []
  methods := [
    ⟨"CreateProject", [⟨"name", .string⟩], .interface ids.project⟩,
    ⟨"GetProject", [⟨"projectId", .string⟩], .interface ids.project⟩,
    ⟨"GetProjects", [], .array (.interface ids.project)⟩,
    ⟨"GetActiveProjects", [], .array (.interface ids.project)⟩,
    ⟨"DeleteProject", [⟨"projectId", .string⟩], .bool⟩,
    ⟨"SearchTasks", [⟨"query", .string⟩], .array (.interface ids.task)⟩,
    ⟨"GetTasksByPriority", [⟨"priority", .enumeration ids.priority⟩],
      .array (.interface ids.task)⟩,
    ⟨"GetOverdueTasks", [], .array (.interface ids.task)⟩,
    ⟨"GetAllTags", [], .set .string⟩,
    ⟨"GetSettings", [], .dict .string .string⟩,
    ⟨"UpdateSettings", [⟨"settings", .dict .string .string⟩], .void⟩,
    ⟨"Save", [⟨"path", .string⟩], .void⟩,
    ⟨"Load", [⟨"path", .string⟩], .void⟩]

def priorityDescriptor : EnumDescriptor :=
  ⟨ids.priority, "Priority", .i32, [("LOW", 0), ("MEDIUM", 1), ("HIGH", 2), ("CRITICAL", 3)]⟩

def statusDescriptor : EnumDescriptor :=
  ⟨ids.status, "Status", .i32,
    [("TODO", 0), ("IN_PROGRESS", 1), ("COMPLETED", 2), ("CANCELLED", 3)]⟩

/-- The registry that holds the task model and nothing else. -/
def registry : Registry where
  names := [("Priority", .enumeration ids.priority), ("Status", .enumeration ids.status),
    ("ITask", .interface ids.task), ("IProject", .interface ids.project),
    ("ITaskManager", .interface ids.manager)]
  interfaces := [taskDescriptor, projectDescriptor, managerDescriptor]
  enums := [priorityDescriptor, statusDescriptor]

def loaded : Loaded where
  space := "TaskManager"
  interfaces := [("ITask", ids.task), ("IProject", ids.project), ("ITaskManager", ids.manager)]
  enums := [("Priority", ids.priority), ("Status", ids.status)]

def factories : List (InterfaceId × Factory) :=
  [(ids.manager, .manager), (ids.project, .project), (ids.task, .task)]

/-- The parts of the outcome of registration that equality can be decided for. -/
theorem load_parts :
    (({} : Registry).load model).toOption.map
        (fun found => (found.1, found.2.names, found.2.interfaces, found.2.enums)) =
      some (loaded, registry.names, registry.interfaces, registry.enums) := by
  decide +kernel

theorem load_model : ({} : Registry).load model = .ok (loaded, registry) := by
  have parts := load_parts
  cases outcome : ({} : Registry).load model with
  | error cause =>
    rw [outcome] at parts
    cases parts
  | ok found =>
    rw [outcome] at parts
    obtain ⟨l, names, interfaces, enums⟩ := found
    simp only [Except.toOption, Option.map_some, Option.some.injEq, Prod.mk.injEq] at parts
    obtain ⟨rfl, rfl, rfl, rfl⟩ := parts
    rfl

end TaskModel

namespace State

/-- The task model is registered, and nothing else is. -/
structure Registered (s : State) : Prop where
  taskIds_eq : s.taskIds = some TaskModel.ids
  registry_eq : s.registry = TaskModel.registry
  factories_eq : s.factories = TaskModel.factories

structure Unregistered (s : State) : Prop where
  taskIds_eq : s.taskIds = none
  registry_eq : s.registry = {}
  factories_eq : s.factories = []

theorem Registered.of_eq {s t : State} (registered : s.Registered) (taskIds : t.taskIds = s.taskIds)
    (registry : t.registry = s.registry) (factories : t.factories = s.factories) :
    t.Registered :=
  ⟨taskIds.trans registered.taskIds_eq, registry.trans registered.registry_eq,
    factories.trans registered.factories_eq⟩

/-- A state after the task model has been registered in it. -/
def withModel (s : State) : State :=
  { s with
    registry := TaskModel.registry
    factories := TaskModel.factories
    taskIds := some TaskModel.ids }

theorem registered_withModel (s : State) : s.withModel.Registered := ⟨rfl, rfl, rfl⟩

theorem Registered.run_taskIds {s : State} (registered : s.Registered) :
    s.run Op.taskIds = (.ok TaskModel.ids, s) := by
  unfold Op.taskIds
  simp only [run_bind, run_get, registered.taskIds_eq, run_pure]

/-- The first factory of an interface replaces none. -/
theorem setFactory_first (s : State) (id : InterfaceId) (factory : Factory)
    (first : s.factories.lookup id = none) (native : factory.refs = []) :
    s.setFactory id factory =
      { s with factories := (id, factory) :: s.factories.filter (·.1 ≠ id) } := by
  simp [setFactory, first, native, Heap.retainAll, Heap.releaseAll]

theorem Unregistered.run_taskIds {s : State} (unregistered : s.Unregistered) :
    s.run Op.taskIds = (.ok TaskModel.ids, s.withModel) := by
  unfold Op.taskIds
  simp only [run_bind, run_get, unregistered.taskIds_eq, unregistered.registry_eq,
    TaskModel.load_model, run_set]
  have htask : TaskModel.loaded.interface? "ITask" = some TaskModel.ids.task := rfl
  have hproject : TaskModel.loaded.interface? "IProject" = some TaskModel.ids.project := rfl
  have hmanager : TaskModel.loaded.interface? "ITaskManager" = some TaskModel.ids.manager := rfl
  have hpriority : TaskModel.loaded.enum? "Priority" = some TaskModel.ids.priority := rfl
  have hstatus : TaskModel.loaded.enum? "Status" = some TaskModel.ids.status := rfl
  simp only [htask, hproject, hmanager, hpriority, hstatus, Op.declared, run_pure, run_modify]
  rw [setFactory_first _ _ _ (by rw [unregistered.factories_eq]; rfl) rfl,
    setFactory_first _ _ _ (by rw [unregistered.factories_eq]; rfl) rfl,
    setFactory_first _ _ _ (by rw [unregistered.factories_eq]; rfl) rfl]
  rw [unregistered.factories_eq]
  rfl

/-- An implementation finds the model registered. -/
theorem Registered.run_nativeIds {s : State} (registered : s.Registered) :
    s.run Op.nativeIds = (.ok TaskModel.ids, s) := by
  unfold Op.nativeIds
  rw [run_tryCatch, registered.run_taskIds]

end State

end ObjectBoundary
