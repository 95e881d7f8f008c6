import ObjectBoundary.Object.Heap
import ObjectBoundary.Tasks.Record

/-!
# Looking into projects and managers

What the lists of live projects and managers refer to, in the order of the lists.
-/

namespace ObjectBoundary.Heap

def task? (heap : Heap) (ref : Ref) : Option Task :=
  match heap.payload? ref with
  | some (.task content) => some content
  | _ => none

def project? (heap : Heap) (ref : Ref) : Option (Project Ref) :=
  match heap.payload? ref with
  | some (.project content) => some content
  | _ => none

def manager? (heap : Heap) (ref : Ref) : Option (Manager Ref) :=
  match heap.payload? ref with
  | some (.manager content) => some content
  | _ => none

def tasksOf (heap : Heap) (p : Project Ref) : List (Ref × Task) :=
  p.tasks.filterMap fun ref => (heap.task? ref).map (ref, ·)

def projectsOf (heap : Heap) (m : Manager Ref) : List (Ref × Project Ref) :=
  m.projects.filterMap fun ref => (heap.project? ref).map (ref, ·)

def taskWithId? (heap : Heap) (p : Project Ref) (id : String) : Option (Ref × Task) :=
  (heap.tasksOf p).find? (·.2.id == id)

def projectWithId? (heap : Heap) (m : Manager Ref) (id : String) : Option (Ref × Project Ref) :=
  (heap.projectsOf m).find? (·.2.id == id)

def countWith (heap : Heap) (p : Project Ref) (status : Status) : Nat :=
  (heap.tasksOf p).countP (·.2.status == status)

def allTasks (heap : Heap) (m : Manager Ref) : List (Ref × Task) :=
  (heap.projectsOf m).flatMap fun (_, p) => heap.tasksOf p

/-- The tasks in which a text occurs, whatever its case and the blanks around it. -/
def search (heap : Heap) (m : Manager Ref) (query : String) : List (Ref × Task) :=
  let needle := Text.lowercase (Text.trim query)
  (heap.allTasks m).filter (·.2.isMatch needle)

/-- The tags of all tasks, each once and in order. -/
def allTags (heap : Heap) (m : Manager Ref) : List String :=
  let tags := (heap.allTasks m).flatMap (·.2.tags)
  (TextMap.ofList (tags.map (·, ""))).entries.map (·.1)

/-- A project with its tasks in place of the references to them. -/
def archiveProject (heap : Heap) (p : Project Ref) : Project Task :=
  { id := p.id, name := p.name, description := p.description, active := p.active
    tasks := (heap.tasksOf p).map (·.2) }

/-- The whole content of a manager. -/
def archive (heap : Heap) (m : Manager Ref) : Archive :=
  { settings := m.settings
    projects := (heap.projectsOf m).map fun (_, p) => heap.archiveProject p }

end ObjectBoundary.Heap
