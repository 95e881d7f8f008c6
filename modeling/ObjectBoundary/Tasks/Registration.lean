import ObjectBoundary.State
import ObjectBoundary.Tasks.Model

/-!
# Registration of the task model

The task model is registered when it is first needed, together with the factories of its interfaces.
A registration that fails leaves nothing behind and is tried again.
-/

namespace ObjectBoundary

namespace State

/-- Puts a factory in the place of the one that an interface has. The references that the old
factory owned are given back. -/
def setFactory (s : State) (id : InterfaceId) (factory : Factory) : State :=
  let old : List Ref :=
    match s.factories.lookup id with
    | some previous => previous.refs
    | none => []
  { s with
    factories := (id, factory) :: s.factories.filter (·.1 ≠ id)
    heap := (s.heap.retainAll factory.refs).releaseAll old }

end State

namespace Op

/-- The declaration of a name in a model that has just been registered. -/
def declared {α : Type} (name : String) : Option α → Op α
  | some id => pure id
  | none => fail (.domain (.undeclared name))

/-- The places of the task declarations; the first request registers them. -/
def taskIds : Op TaskIds := do
  let s ← get
  match s.taskIds with
  | some ids => return ids
  | none =>
    match s.registry.load TaskModel.model with
    | .error cause => fail (.domain (.stated cause.message))
    | .ok (loaded, registry) =>
      set { s with registry }
      let ids : TaskIds :=
        { task := ← declared "ITask" (loaded.interface? "ITask")
          project := ← declared "IProject" (loaded.interface? "IProject")
          manager := ← declared "ITaskManager" (loaded.interface? "ITaskManager")
          priority := ← declared "Priority" (loaded.enum? "Priority")
          status := ← declared "Status" (loaded.enum? "Status") }
      modify fun s =>
        { ((s.setFactory ids.task .task).setFactory ids.project .project).setFactory ids.manager
            .manager with
          taskIds := some ids }
      return ids

/-- The places of the task declarations, for an implementation: a failure is a refusal. -/
def nativeIds : Op TaskIds :=
  tryCatch taskIds fun failure => fail (.domain (.stated failure.toFault.message))

end Op

end ObjectBoundary
