import ObjectBoundary.Proofs.Tasks.Live

/-!
# Methods of tasks, projects and managers

A method only reads, or it changes something and then gives a result that needs no handle, or it is
one of the two that make an object. So a method that is not among the two is refused before anything
has changed.
-/

namespace ObjectBoundary

open Op State

variable {s t : State}

namespace TaskModel

/-- The methods that make an object and hand it out. -/
def makers : List String := ["CreateTask", "CreateProject"]

end TaskModel

namespace State

/-- How a method with a declared result type ends that is not refused. -/
inductive Settles (s : State) (method : String) (returns : Ty) (value : Value) (t : State) :
    Prop where
  | read (same : t = s) (carries : s.heap.Carries value.refs)
  | silent (advanced : s.Advanced t) (returns_eq : returns = .void)
  | flag (b : Bool) (advanced : s.Advanced t) (value_eq : value = .bool b)
      (returns_eq : returns = .bool)
  | made (ref : Ref) (id : InterfaceId) (maker : method ∈ TaskModel.makers)
      (advanced : s.Advanced t) (value_eq : value = .object ref) (holds : t.heap.Holds ref)
      (tag_eq : ref.tag = .interface id) (returns_eq : returns = .interface id)

end State

section Methods

variable {h : Handle} {self : Ref} {method : String} {arguments : List Value} {m : Method}

theorem Op.text_finds (arguments : List Value) (index : Nat) :
    (consent do (← Value.argument arguments index).asText).Finds s fun _ => True :=
  finds_consent fun _ _ => trivial

theorem Heap.carries_plain {heap : Heap} {value : Value} (h : value.refs = []) :
    heap.Carries value.refs := by
  rw [h]
  exact carries_nil heap

/-- An array of objects that are there. -/
theorem Heap.carries_objectArray {heap : Heap} {α : Type} {items : List (Ref × α)}
    (h : ∀ r a, (r, a) ∈ items → heap.Holds r ∧ r.tag.isInterface) :
    heap.Carries (Project.objectArray items).refs := by
  intro r hr
  obtain ⟨a, ha⟩ := Project.mem_refs_objectArray hr
  exact h r a ha

/-- A request that only reads settles a method. -/
theorem Op.Finds.settles {op : Op Value} {returns : Ty} (sound : s.Sound)
    (h : op.Finds s fun value => s.heap.Carries value.refs) :
    op.Meets s (s.Settles method returns) s.Refused := by
  refine Meets.imp h (fun _ _ found => .read found.1 found.2) fun e t found => ?_
  obtain ⟨rfl, unnamed⟩ := found
  exact .refl sound unnamed

theorem Project.invoke_meets {p : Project Ref} (sound : s.Sound)
    (hb : s.handles.bound? h = some self)
    (hp : s.heap.payloadAt self.number = some (.project p))
    (hm : TaskModel.projectDescriptor.method? method = some m) :
    (p.invoke self method arguments).Meets s (s.Settles method m.returns) s.Refused := by
  have holds := sound.holds_bound hb
  have held : ∀ r t, (r, t) ∈ s.heap.tasksOf p → s.heap.Holds r ∧ r.tag.isInterface := by
    intro r t hr
    obtain ⟨hr, htag⟩ := sound.task_held holds.has hp (Heap.mem_of_mem_tasksOf hr)
    exact ⟨hr, by rw [htag]; rfl⟩
  refine meets_get ?_
  split
  · -- CreateTask
    cases hm
    refine (text_finds arguments 0).bind_refused sound fun title _ => ?_
    refine (text_finds arguments 1).bind_refused sound fun description _ => ?_
    refine (createTask_meets sound hb hp title description (.refl sound rfl)).bind
      fun ref t enlists => ?_
    exact meets_pure (.made ref TaskModel.ids.task (by simp [TaskModel.makers]) enlists.advanced rfl
      enlists.holds enlists.tag_eq rfl)
  · -- GetTask
    refine Finds.settles sound ((text_finds arguments 0).bind fun id _ => ?_)
    split
    · next ref task found =>
      refine finds_pure fun r hr => ?_
      rw [List.mem_singleton.mp hr]
      exact held ref task (List.mem_of_find?_eq_some found)
    · exact finds_fail rfl
  · -- GetTasks
    exact Finds.settles sound (finds_pure (Heap.carries_objectArray held))
  · -- GetTasksByStatus
    refine Finds.settles sound ((finds_consent fun _ _ => trivial).bind fun status _ => ?_)
    exact finds_pure (Heap.carries_objectArray fun r t hr => held r t (List.mem_filter.mp hr).1)
  · -- DeleteTask
    cases hm
    refine (text_finds arguments 0).bind_refused sound fun id _ => ?_
    exact (deleteTask_meets sound holds hp id).bind fun b t advanced =>
      meets_pure (.flag b advanced rfl rfl)
  · exact Finds.settles sound (finds_pure (Heap.carries_nil _))
  · exact Finds.settles sound (finds_pure (Heap.carries_nil _))
  · exact Finds.settles sound (finds_pure (Heap.carries_nil _))
  · exact meets_fail (.refl sound rfl)

theorem Manager.invoke_meets {m' : Manager Ref} (sound : s.Sound)
    (hb : s.handles.bound? h = some self)
    (hp : s.heap.payloadAt self.number = some (.manager m'))
    (hm : TaskModel.managerDescriptor.method? method = some m) :
    (m'.invoke self method arguments).Meets s (s.Settles method m.returns) s.Refused := by
  have holds := sound.holds_bound hb
  have fits := sound.heap.fits_of_holds holds.has hp
  have projects : ∀ r q, (r, q) ∈ s.heap.projectsOf m' → s.heap.Holds r ∧ r.tag.isInterface := by
    intro r q hr
    obtain ⟨hr, htag⟩ := sound.project_held holds.has hp (Heap.mem_of_mem_projectsOf hr).1
    exact ⟨hr, by rw [htag]; rfl⟩
  have tasks : ∀ r t, (r, t) ∈ s.heap.allTasks m' → s.heap.Holds r ∧ r.tag.isInterface := by
    intro r t hr
    obtain ⟨hr, htag⟩ := sound.allTasks_held holds.has hp hr
    exact ⟨hr, by rw [htag]; rfl⟩
  refine meets_get ?_
  split
  · -- CreateProject
    cases hm
    refine (text_finds arguments 0).bind_refused sound fun name _ => ?_
    refine (createProject_meets sound hb hp name (.refl sound rfl)).bind fun ref t enlists => ?_
    exact meets_pure (.made ref TaskModel.ids.project (by simp [TaskModel.makers]) enlists.advanced
      rfl enlists.holds enlists.tag_eq rfl)
  · -- GetProject
    refine Finds.settles sound ((text_finds arguments 0).bind fun id _ => ?_)
    split
    · next ref q found =>
      refine finds_pure fun r hr => ?_
      rw [List.mem_singleton.mp hr]
      exact projects ref q (List.mem_of_find?_eq_some found)
    · exact finds_fail rfl
  · -- GetProjects
    exact Finds.settles sound (finds_pure (Heap.carries_objectArray projects))
  · -- GetActiveProjects
    exact Finds.settles sound (finds_pure (Heap.carries_objectArray fun r q hr =>
      projects r q (List.mem_filter.mp hr).1))
  · -- DeleteProject
    cases hm
    refine (text_finds arguments 0).bind_refused sound fun id _ => ?_
    exact (deleteProject_meets sound holds hp id).bind fun b t advanced =>
      meets_pure (.flag b advanced rfl rfl)
  · -- SearchTasks
    refine Finds.settles sound ((text_finds arguments 0).bind fun query _ => ?_)
    exact finds_pure (Heap.carries_objectArray fun r t hr => tasks r t (List.mem_filter.mp hr).1)
  · -- GetTasksByPriority
    refine Finds.settles sound ((finds_consent fun _ _ => trivial).bind fun priority _ => ?_)
    exact finds_pure (Heap.carries_objectArray fun r t hr => tasks r t (List.mem_filter.mp hr).1)
  · -- GetOverdueTasks
    refine Finds.settles sound (finds_get ?_)
    exact finds_pure (Heap.carries_objectArray fun r t hr => tasks r t (List.mem_filter.mp hr).1)
  · -- GetAllTags
    exact Finds.settles sound (finds_pure (Heap.carries_plain (Value.itemRefs_texts _)))
  · -- GetSettings
    exact Finds.settles sound (finds_pure (Heap.carries_plain (Task.refs_dictOf _)))
  · -- UpdateSettings
    cases hm
    refine (finds_consent fun _ _ => trivial).bind_refused sound fun updates _ => ?_
    refine Meets.bind (replace_meets sound holds ⟨fits.1, fits.2⟩
      fun r hr => sound.heap.holds_owned hp hr) fun _ t advanced => ?_
    exact meets_pure (.silent advanced rfl)
  · -- Save
    cases hm
    refine (text_finds arguments 0).bind_refused sound fun path _ => ?_
    exact (save_meets sound m' path).bind fun _ t advanced => meets_pure (.silent advanced rfl)
  · -- Load
    cases hm
    refine (text_finds arguments 0).bind_refused sound fun path _ => ?_
    exact (load_meets sound hb hp path).bind fun _ t advanced => meets_pure (.silent advanced rfl)
  · exact meets_fail (.refl sound rfl)

/-- The declaration of the interface of an object that is there. -/
theorem State.SoundWith.descriptor {made : List Nat} {id : InterfaceId} {d : InterfaceDescriptor}
    (sound : s.SoundWith made) (has : s.heap.Has self) (htag : self.tag = .interface id)
    (hd : s.registry.interface? id = some d) :
    TaskModel.registry.interface? id = some d := by
  have registered := sound.registered has (by rw [htag]; rfl)
  rwa [registered.registry_eq] at hd

theorem Op.callMethod_meets {id : InterfaceId} {d : InterfaceDescriptor} (sound : s.Sound)
    (hb : s.handles.bound? h = some self) (htag : self.tag = .interface id)
    (hd : s.registry.interface? id = some d) (hm : d.method? method = some m) :
    (callMethod self method arguments).Meets s (s.Settles method m.returns) s.Refused := by
  have holds := sound.holds_bound hb
  have hd := sound.descriptor holds.has htag hd
  refine (payload_finds holds).bind_refused sound fun p hp => ?_
  have fits := sound.heap.fits_of_holds holds.has hp
  cases p with
  | task t =>
    obtain rfl : id = TaskModel.ids.task := by
      cases htag.symm.trans fits
      rfl
    cases hd
    refine meets_get ?_
    refine (finds_consent fun found h => Task.invoke_cases h).bind_refused sound ?_
    rintro ⟨value, t'⟩ ⟨plain, rfl | ⟨rfl, silent⟩⟩
    · refine meets_run (run_replace s self _) ?_
      rw [withPayload_self hp rfl]
      exact meets_pure (.read rfl (Heap.carries_plain plain))
    · have returns_eq : m.returns = .void := by
        simp only [List.mem_cons, List.not_mem_nil, or_false] at silent
        rcases silent with rfl | rfl | rfl
        all_goals
          cases hm
          rfl
      refine Meets.bind (replace_meets sound holds fits fun r hr => by cases hr) ?_
      exact fun _ t advanced => meets_pure (.silent advanced returns_eq)
  | project q =>
    obtain rfl : id = TaskModel.ids.project := by
      cases htag.symm.trans fits.1
      rfl
    cases hd
    exact Project.invoke_meets sound hb hp hm
  | manager q =>
    obtain rfl : id = TaskModel.ids.manager := by
      cases htag.symm.trans fits.1
      rfl
    cases hd
    exact Manager.invoke_meets sound hb hp hm
  | scripted content => cases fits
  | text value => exact meets_get (meets_fail (.refl sound rfl))
  | collection c => exact meets_get (meets_fail (.refl sound rfl))

theorem Op.writeProperty_meets (sound : s.Sound) (holds : s.heap.Holds self) (name : String)
    (value : Value) :
    (writeProperty self name value).Meets s (fun _ t => s.Advanced t) s.Refused := by
  refine (payload_finds holds).bind_refused sound fun p hp => ?_
  have fits := sound.heap.fits_of_holds holds.has hp
  cases p with
  | task t =>
    refine (finds_consent fun _ _ => trivial).bind_refused sound fun t' _ => ?_
    exact replace_meets sound holds fits fun r hr => by cases hr
  | project q =>
    refine (finds_consent fun _ h => Project.tasks_withProperty h).bind_refused sound
      fun q' same => ?_
    refine replace_meets sound holds ⟨fits.1, fun r hr => fits.2 r (same ▸ hr)⟩ fun r hr => ?_
    exact sound.heap.holds_owned hp (show r ∈ q.tasks from same ▸ hr)
  | manager q => exact meets_fail (.refl sound rfl)
  | scripted content => cases fits
  | text value => exact meets_get (meets_fail (.refl sound rfl))
  | collection c => exact meets_get (meets_fail (.refl sound rfl))

end Methods

end ObjectBoundary
