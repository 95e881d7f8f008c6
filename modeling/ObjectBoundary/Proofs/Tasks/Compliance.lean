import ObjectBoundary.Proofs.Marshal.Compliance
import ObjectBoundary.Proofs.Tasks.Members

/-!
# Implementations keep to their declarations

Every declared member of tasks, projects and managers is implemented. With arguments of the declared
types it gives a value of the declared type, or refuses for a reason that has nothing to do with
types.
-/

namespace ObjectBoundary

open Op State

/-- A step of an implementation gives what is wanted, or refuses for a reason of its own. -/
def Answers {α : Type} (x : Except Refusal α) (wanted : α → Prop) : Prop :=
  match x with
  | .ok a => wanted a
  | .error cause => (Fault.domain cause).isIllTyped = false

theorem Answers.consults {α : Type} {x : Except Refusal α} {wanted : α → Prop} {s : State}
    {fixed : Bool} (h : Answers x wanted) : (consent x).Consults fixed s wanted := by
  cases x with
  | ok a => exact consults_pure h
  | error cause => exact complies_fail ⟨h, fun _ => rfl⟩

theorem Answers.bind {α β : Type} {x : Except Refusal α} {f : α → Except Refusal β}
    {wanted : α → Prop} {wanted' : β → Prop} (h : Answers x wanted)
    (hf : ∀ a, wanted a → Answers (f a) wanted') : Answers (x >>= f) wanted' := by
  cases x with
  | ok a => exact hf a h
  | error cause => exact h

namespace InterfaceDescriptor

variable {d : InterfaceDescriptor} {name : String}

theorem mem_of_property? {p : Property} (h : d.property? name = some p) :
    p ∈ d.properties ∧ p.name = name :=
  ⟨List.mem_of_find?_eq_some h, by simpa using List.find?_some h⟩

theorem mem_of_method? {m : Method} (h : d.method? name = some m) :
    m ∈ d.methods ∧ m.name = name :=
  ⟨List.mem_of_find?_eq_some h, by simpa using List.find?_some h⟩

end InterfaceDescriptor

/-! ### Values of the task model -/

namespace TaskModel

theorem hasType_priority (p : Priority) :
    registry.HasType (.enumeration ids.priority) p.toValue := by
  have found : registry.enum? ids.priority = some priorityDescriptor := rfl
  cases p <;> exact .enumerator found rfl

theorem hasType_status (status : Status) :
    registry.HasType (.enumeration ids.status) status.toValue := by
  have found : registry.enum? ids.status = some statusDescriptor := rfl
  cases status <;> exact .enumerator found rfl

/-- The enumerators that are declared are the ones that are known. -/
theorem answers_ofValue_priority {value : Value}
    (typed : registry.HasType (.enumeration ids.priority) value) :
    Answers (Priority.ofValue value) fun _ => True := by
  cases typed with
  | @enumerator _ d n found declared =>
    cases found
    obtain ⟨v, member, same⟩ := List.any_eq_true.mp declared
    rw [← beq_iff_eq.mp same]
    simp only [priorityDescriptor, List.mem_cons, List.not_mem_nil, or_false] at member
    rcases member with rfl | rfl | rfl | rfl
    all_goals exact trivial

theorem answers_ofValue_status {value : Value}
    (typed : registry.HasType (.enumeration ids.status) value) :
    Answers (Status.ofValue value) fun _ => True := by
  cases typed with
  | @enumerator _ d n found declared =>
    cases found
    obtain ⟨v, member, same⟩ := List.any_eq_true.mp declared
    rw [← beq_iff_eq.mp same]
    simp only [statusDescriptor, List.mem_cons, List.not_mem_nil, or_false] at member
    rcases member with rfl | rfl | rfl | rfl
    all_goals exact trivial

theorem hasType_texts (texts : List String) :
    registry.HasType (.array .string) (.array (texts.map .str)) := by
  refine .array fun item member => ?_
  obtain ⟨text, _, rfl⟩ := List.mem_map.mp member
  exact .str text

theorem hasType_dictOf (map : TextMap) :
    registry.HasType (.dict .string .string) (Task.dictOf map) := by
  refine .dict (fun entry member => ?_) fun entry member => ?_
  all_goals
    obtain ⟨pair, _, rfl⟩ := List.mem_map.mp member
    exact .str _

theorem hasType_objectArray {α : Type} {id : InterfaceId} {items : List (Ref × α)}
    (each : ∀ r a, (r, a) ∈ items → r.tag = .interface id) :
    registry.HasType (.array (.interface id)) (Project.objectArray items) := by
  refine .array fun item member => ?_
  obtain ⟨⟨r, a⟩, listed, rfl⟩ := List.mem_map.mp member
  exact .object (each r a listed)

/-- The tags of all tasks are a set: no tag is there twice. -/
theorem hasType_allTags (heap : Heap) (m : Manager Ref) :
    registry.HasType (.set .string) (.set ((heap.allTags m).map .str)) := by
  refine .set (fun item member => ?_) ?_
  · obtain ⟨text, _, rfl⟩ := List.mem_map.mp member
    exact .str text
  · have apart : (heap.allTags m).Nodup := by
      refine List.Pairwise.map _ (fun a b below => ?_) (TextMap.sorted _)
      exact fun same => String.lt_irrefl b.1 (same ▸ below)
    exact apart.map fun a b same => by cases same; rfl

/-- A list of texts is read back as texts. -/
theorem answers_mapM_asText {items : List Value}
    (each : ∀ item ∈ items, registry.HasType .string item) :
    Answers (items.mapM Value.asText) fun _ => True := by
  have some : ∀ item ∈ items, ∃ text, item.asText = .ok text := by
    intro item member
    cases each item member with
    | str text => exact ⟨text, rfl⟩
  obtain ⟨texts, related⟩ := exists_forall₂ some
  rw [mapM_eq_ok_iff.mpr related]
  exact trivial

end TaskModel

open TaskModel

/-! ### Tasks -/

namespace Task

variable {t : Task} {name : String}

theorem property_answers {p : Property} (declared : taskDescriptor.property? name = some p) :
    Answers (t.property name) (registry.HasType p.ty) := by
  obtain ⟨member, rfl⟩ := InterfaceDescriptor.mem_of_property? declared
  simp only [taskDescriptor, List.mem_cons, List.not_mem_nil, or_false] at member
  rcases member with rfl | rfl | rfl | rfl | rfl | rfl | rfl | rfl
  · exact .str t.id
  · exact .str t.title
  · exact .str t.description
  · exact hasType_priority t.priority
  · exact hasType_status t.status
  · exact .str t.createdAt
  · exact .str t.dueDate
  · exact hasType_texts t.tags

theorem checkDueDate_answers (text : String) : Answers (checkDueDate text) fun _ => True := by
  unfold checkDueDate
  split
  · exact trivial
  · exact rfl

theorem complete_answers : Answers t.complete fun _ => True := by
  unfold complete
  split
  · exact rfl
  · exact trivial

theorem cancel_answers : Answers t.cancel fun _ => True := by
  unfold cancel
  split
  · exact rfl
  · exact trivial

theorem withProperty_answers {p : Property} {value : Value}
    (declared : taskDescriptor.property? name = some p) (writable : p.readOnly = false)
    (typed : registry.HasType p.ty value) : Answers (t.withProperty name value) fun _ => True := by
  obtain ⟨member, rfl⟩ := InterfaceDescriptor.mem_of_property? declared
  simp only [taskDescriptor, List.mem_cons, List.not_mem_nil, or_false] at member
  rcases member with rfl | rfl | rfl | rfl | rfl | rfl | rfl | rfl
  · cases writable
  · cases writable
  · cases typed
    exact trivial
  · exact (answers_ofValue_priority typed).bind fun _ _ => trivial
  · exact (answers_ofValue_status typed).bind fun _ _ => trivial
  · cases writable
  · cases typed with
    | str text => exact (checkDueDate_answers text).bind fun _ _ => trivial
  · cases typed with
    | array each => exact (answers_mapM_asText each).bind fun _ _ => trivial

theorem invoke_answers {m : Method} {today : Date} {arguments : List Value}
    (declared : taskDescriptor.method? name = some m)
    (typed : List.Forall₂ (fun p value => registry.HasType p.ty value) m.parameters arguments) :
    Answers (t.invoke today name arguments) fun found => registry.HasType m.returns found.1 := by
  obtain ⟨member, rfl⟩ := InterfaceDescriptor.mem_of_method? declared
  simp only [taskDescriptor, List.mem_cons, List.not_mem_nil, or_false] at member
  rcases member with rfl | rfl | rfl | rfl | rfl
  · -- Complete
    exact complete_answers.bind fun _ _ => .void
  · -- Cancel
    exact cancel_answers.bind fun _ _ => .void
  · -- IsOverdue
    exact .bool _
  · -- GetMetadata
    exact hasType_dictOf t.metadata
  · -- SetMetadata
    cases typed with
    | cons key rest =>
      cases rest with
      | cons content none =>
        cases key
        cases content
        exact .void

end Task

/-! ### Projects -/

namespace Project

section Properties

variable {τ : Type} {q : Project τ} {name : String} {p : Property}

theorem property_answers (declared : projectDescriptor.property? name = some p) :
    Answers (q.property name) (registry.HasType p.ty) := by
  obtain ⟨member, rfl⟩ := InterfaceDescriptor.mem_of_property? declared
  simp only [projectDescriptor, List.mem_cons, List.not_mem_nil, or_false] at member
  rcases member with rfl | rfl | rfl | rfl
  · exact .str q.id
  · exact .str q.name
  · exact .str q.description
  · exact .bool q.active

theorem withProperty_answers {value : Value} (declared : projectDescriptor.property? name = some p)
    (writable : p.readOnly = false) (typed : registry.HasType p.ty value) :
    Answers (q.withProperty name value) fun _ => True := by
  obtain ⟨member, rfl⟩ := InterfaceDescriptor.mem_of_property? declared
  simp only [projectDescriptor, List.mem_cons, List.not_mem_nil, or_false] at member
  rcases member with rfl | rfl | rfl | rfl
  · cases writable
  all_goals
    cases typed
    exact trivial

end Properties

end Project

/-! ### Requests that change the state -/

section Requests

variable {s : State} {fixed : Bool} {self : Ref}

/-- The counters of ids and the like do not matter. -/
theorem Op.modify_complies {change : State → State} (registry_eq : (change s).registry = s.registry)
    (heap_eq : (change s).heap = s.heap) :
    (modify change : Op Unit).Complies fixed s fun _ _ => True :=
  complies_of_run (run_modify s change)
    (keepsTypes_of_heap registry_eq fun h => heap_eq ▸ h) trivial

theorem Op.mapM_complies {α β : Type} {f : α → Op β}
    (each : ∀ a t, (f a).Complies fixed t fun _ _ => True) (items : List α) :
    (items.mapM f).Complies fixed s fun _ _ => True := by
  induction items generalizing s with
  | nil => exact complies_pure trivial
  | cons item items ih =>
    rw [List.mapM_cons]
    refine (each item s).bind fun made t _ _ => ?_
    exact ih.bind fun more u _ _ => complies_pure trivial

theorem State.observeId_heap (s : State) (id : String) :
    (s.observeId id).registry = s.registry ∧ (s.observeId id).heap = s.heap := by
  unfold State.observeId
  split
  · exact ⟨rfl, rfl⟩
  · split <;> exact ⟨rfl, rfl⟩

theorem Project.createTask_complies (registered : s.Registered) (p : Project Ref)
    (title description : String) :
    (p.createTask self title description).Complies fixed s
      fun ref _ => ref.tag = .interface ids.task := by
  unfold Project.createTask
  split
  · exact complies_fail_bind ⟨rfl, fun _ => rfl⟩
  · refine complies_run registered.run_nativeIds (.refl s) ?_
    refine complies_run rfl (keepsTypes_of_heap rfl fun h => h) (complies_get ?_)
    refine (create_complies _ (by exact trivial)).bind fun ref t _ tag_eq => ?_
    exact (replace_complies self (by exact trivial)).bind fun _ u _ _ => complies_pure tag_eq

theorem Project.deleteTask_complies (p : Project Ref) (id : String) :
    (p.deleteTask self id).Complies fixed s fun _ _ => True := by
  refine complies_get ?_
  split
  · exact (replace_complies self (by exact trivial)).bind fun _ _ _ _ => complies_pure trivial
  · exact complies_pure trivial

theorem Project.restore_complies (ids : TaskIds) (p : Project Task) :
    (Project.restore ids p).Complies fixed s fun _ _ => True := by
  have observed : ∀ (id : String) (t : State),
      (modify (·.observeId id) : Op Unit).Complies fixed t fun _ _ => True :=
    fun id t => modify_complies (t.observeId_heap id).1 (t.observeId_heap id).2
  have tasks : ∀ (task : Task) (t : State),
      (modify (·.observeId task.id) >>= fun _ => newTask ids task).Complies fixed t
        fun _ _ => True := by
    intro task t
    refine (observed task.id t).bind fun _ u _ _ => ?_
    exact (create_complies _ (by exact trivial)).imp fun _ _ _ => trivial
  refine (mapM_complies tasks p.tasks).bind fun refs t _ _ => ?_
  refine (observed p.id t).bind fun _ u _ _ => ?_
  exact (create_complies _ (by exact trivial)).imp fun _ _ _ => trivial

theorem Manager.createProject_complies (registered : s.Registered) (m : Manager Ref)
    (name : String) :
    (m.createProject self name).Complies fixed s
      fun ref _ => ref.tag = .interface ids.project := by
  unfold Manager.createProject
  split
  · exact complies_fail_bind ⟨rfl, fun _ => rfl⟩
  · refine complies_run registered.run_nativeIds (.refl s) ?_
    refine complies_run rfl (keepsTypes_of_heap rfl fun h => h) ?_
    refine (create_complies _ (by exact trivial)).bind fun ref t _ tag_eq => ?_
    exact (replace_complies self (by exact trivial)).bind fun _ u _ _ => complies_pure tag_eq

theorem Manager.deleteProject_complies (m : Manager Ref) (id : String) :
    (m.deleteProject self id).Complies fixed s fun _ _ => True := by
  refine complies_get ?_
  split
  · exact (replace_complies self (by exact trivial)).bind fun _ _ _ _ => complies_pure trivial
  · exact complies_pure trivial

theorem Manager.save_complies (m : Manager Ref) (path : String) :
    (m.save path).Complies fixed s fun _ _ => True := by
  refine complies_get ?_
  split
  · exact complies_of_run (run_set s _) (keepsTypes_of_heap rfl fun h => h) trivial
  · exact complies_fail ⟨rfl, fun _ => rfl⟩

theorem Manager.parse_answers (path text : String) :
    Answers (Manager.parse path text) fun _ => True := by
  unfold Manager.parse
  split
  · exact rfl
  · split
    · exact rfl
    · exact trivial

theorem Manager.load_complies (registered : s.Registered) (path : String) :
    (Manager.load self path).Complies fixed s fun _ _ => True := by
  refine complies_get ?_
  split
  · next text _ =>
    refine complies_run (run_pure s text) (.refl s) ?_
    refine (parse_answers path text).consults.bind fun archive _ => ?_
    refine complies_run registered.run_nativeIds (.refl s) ?_
    refine (mapM_complies (fun p t => Project.restore_complies _ p) archive.projects).bind
      fun projects t _ _ => ?_
    exact replace_complies self (by exact trivial)
  · exact complies_fail_bind ⟨rfl, fun _ => rfl⟩

/-! ### Methods of projects and managers -/

variable {h : Handle} {name : String} {m : Method} {arguments : List Value}

/-- The text at a position, when a text was declared there. -/
theorem Op.text_consults {text : String} {index : Nat}
    (found : Value.argument arguments index = .ok (.str text)) :
    (consent do (← Value.argument arguments index).asText).Consults fixed s (· = text) := by
  rw [found]
  exact consults_pure rfl

theorem TaskModel.single_text {name : String} (typed : List.Forall₂
    (fun (p : Parameter) value => registry.HasType p.ty value) [⟨name, .string⟩] arguments) :
    ∃ text, arguments = [.str text] := by
  cases typed with
  | cons first rest =>
    cases rest
    cases first with
    | str text => exact ⟨text, rfl⟩

theorem TaskModel.single_value {p : Parameter} (typed : List.Forall₂
    (fun (p : Parameter) value => registry.HasType p.ty value) [p] arguments) :
    ∃ value, arguments = [value] ∧ registry.HasType p.ty value := by
  cases typed with
  | cons first rest =>
    cases rest
    exact ⟨_, rfl, first⟩

theorem Project.invoke_complies {p : Project Ref} (sound : s.Sound)
    (hb : s.handles.bound? h = some self)
    (hp : s.heap.payloadAt self.number = some (.project p))
    (declared : projectDescriptor.method? name = some m)
    (typed : List.Forall₂ (fun p value => registry.HasType p.ty value) m.parameters arguments) :
    (p.invoke self name arguments).Complies fixed s
      fun value _ => registry.HasType m.returns value := by
  have holds := sound.holds_bound hb
  have fits := sound.heap.fits_of_holds holds.has hp
  have registered := sound.registered holds.has (by rw [fits.1]; rfl)
  have tasks : ∀ r t, (r, t) ∈ s.heap.tasksOf p → r.tag = .interface ids.task :=
    fun r t listed => fits.2 r (Heap.mem_of_mem_tasksOf listed)
  obtain ⟨member, rfl⟩ := InterfaceDescriptor.mem_of_method? declared
  simp only [projectDescriptor, List.mem_cons, List.not_mem_nil, or_false] at member
  refine complies_get ?_
  rcases member with rfl | rfl | rfl | rfl | rfl | rfl | rfl | rfl
  · -- CreateTask
    cases typed with
    | cons title rest =>
      obtain ⟨description, rfl⟩ := single_text rest
      cases title
      refine (text_consults rfl).bind fun title _ => (text_consults rfl).bind fun text _ => ?_
      refine (createTask_complies registered p title text).bind fun ref t _ tag_eq => ?_
      exact complies_pure (.object tag_eq)
  · -- GetTask
    obtain ⟨id, rfl⟩ := single_text typed
    refine (text_consults rfl).bind fun id _ => ?_
    split
    · next ref task found =>
      exact complies_pure (.object (tasks ref task (List.mem_of_find?_eq_some found)))
    · exact complies_fail ⟨rfl, fun _ => rfl⟩
  · -- GetTasks
    exact complies_pure (hasType_objectArray tasks)
  · -- GetTasksByStatus
    obtain ⟨value, rfl, given⟩ := single_value typed
    refine (answers_ofValue_status given).consults.bind fun status _ => ?_
    exact complies_pure (hasType_objectArray fun r t hr => tasks r t (List.mem_filter.mp hr).1)
  · -- DeleteTask
    obtain ⟨id, rfl⟩ := single_text typed
    refine (text_consults rfl).bind fun id _ => ?_
    exact (deleteTask_complies p id).bind fun b t _ _ => complies_pure (.bool b)
  · -- GetTaskCount
    exact complies_pure (.i32 _)
  · -- GetCompletedCount
    exact complies_pure (.i32 _)
  · -- GetTaskCountByStatus
    refine complies_pure (.dict (fun entry member => ?_) fun entry member => ?_)
    · obtain ⟨status, _, rfl⟩ := List.mem_map.mp member
      exact hasType_status status
    · obtain ⟨status, _, rfl⟩ := List.mem_map.mp member
      exact .i32 _

theorem Manager.textEntries_answers {value : Value}
    (typed : registry.HasType (.dict .string .string) value) :
    Answers (textEntries value) fun _ => True := by
  cases typed with
  | @dict _ _ entries keys values =>
    have some : ∀ entry ∈ entries, ∃ pair : String × String,
        (do return (← entry.1.asText, ← entry.2.asText) : Except Refusal (String × String)) =
          .ok pair := by
      rintro ⟨key, value⟩ member
      cases keys _ member with
      | str first =>
        cases values _ member with
        | str second => exact ⟨(first, second), rfl⟩
    obtain ⟨pairs, related⟩ := exists_forall₂ some
    have read : textEntries (.dict entries) = .ok pairs := mapM_eq_ok_iff.mpr related
    rw [read]
    exact trivial

theorem Manager.invoke_complies {m' : Manager Ref} (sound : s.Sound)
    (hb : s.handles.bound? h = some self)
    (hp : s.heap.payloadAt self.number = some (.manager m'))
    (declared : managerDescriptor.method? name = some m)
    (typed : List.Forall₂ (fun p value => registry.HasType p.ty value) m.parameters arguments) :
    (m'.invoke self name arguments).Complies fixed s
      fun value _ => registry.HasType m.returns value := by
  have holds := sound.holds_bound hb
  have fits := sound.heap.fits_of_holds holds.has hp
  have registered := sound.registered holds.has (by rw [fits.1]; rfl)
  have projects : ∀ r q, (r, q) ∈ s.heap.projectsOf m' → r.tag = .interface ids.project :=
    fun r q listed => fits.2 r (Heap.mem_of_mem_projectsOf listed).1
  have tasks : ∀ r t, (r, t) ∈ s.heap.allTasks m' → r.tag = .interface ids.task :=
    fun r t listed => (sound.allTasks_held holds.has hp listed).2
  obtain ⟨member, rfl⟩ := InterfaceDescriptor.mem_of_method? declared
  simp only [managerDescriptor, List.mem_cons, List.not_mem_nil, or_false] at member
  refine complies_get ?_
  rcases member with rfl | rfl | rfl | rfl | rfl | rfl | rfl | rfl | rfl | rfl | rfl | rfl | rfl
  · -- CreateProject
    obtain ⟨name, rfl⟩ := single_text typed
    refine (text_consults rfl).bind fun name _ => ?_
    refine (createProject_complies registered m' name).bind fun ref t _ tag_eq => ?_
    exact complies_pure (.object tag_eq)
  · -- GetProject
    obtain ⟨id, rfl⟩ := single_text typed
    refine (text_consults rfl).bind fun id _ => ?_
    split
    · next ref q found =>
      exact complies_pure (.object (projects ref q (List.mem_of_find?_eq_some found)))
    · exact complies_fail ⟨rfl, fun _ => rfl⟩
  · -- GetProjects
    exact complies_pure (hasType_objectArray projects)
  · -- GetActiveProjects
    exact complies_pure (hasType_objectArray fun r q hr => projects r q (List.mem_filter.mp hr).1)
  · -- DeleteProject
    obtain ⟨id, rfl⟩ := single_text typed
    refine (text_consults rfl).bind fun id _ => ?_
    exact (deleteProject_complies m' id).bind fun b t _ _ => complies_pure (.bool b)
  · -- SearchTasks
    obtain ⟨query, rfl⟩ := single_text typed
    refine (text_consults rfl).bind fun query _ => ?_
    exact complies_pure (hasType_objectArray fun r t hr => tasks r t (List.mem_filter.mp hr).1)
  · -- GetTasksByPriority
    obtain ⟨value, rfl, given⟩ := single_value typed
    refine (answers_ofValue_priority given).consults.bind fun priority _ => ?_
    exact complies_pure (hasType_objectArray fun r t hr => tasks r t (List.mem_filter.mp hr).1)
  · -- GetOverdueTasks
    refine complies_get ?_
    exact complies_pure (hasType_objectArray fun r t hr => tasks r t (List.mem_filter.mp hr).1)
  · -- GetAllTags
    exact complies_pure (hasType_allTags s.heap m')
  · -- GetSettings
    exact complies_pure (hasType_dictOf m'.settings)
  · -- UpdateSettings
    obtain ⟨value, rfl, given⟩ := single_value typed
    refine (textEntries_answers given).consults.bind fun updates _ => ?_
    exact (replace_complies self (by exact trivial)).bind fun _ t _ _ => complies_pure .void
  · -- Save
    obtain ⟨path, rfl⟩ := single_text typed
    refine (text_consults rfl).bind fun path _ => ?_
    exact (save_complies m' path).bind fun _ t _ _ => complies_pure .void
  · -- Load
    obtain ⟨path, rfl⟩ := single_text typed
    refine (text_consults rfl).bind fun path _ => ?_
    exact (load_complies registered path).bind fun _ t _ _ => complies_pure .void

/-! ### Objects of interfaces -/

variable {id : InterfaceId} {d : InterfaceDescriptor} {p : Property}

/-- An object of an interface is what the interface is declared for. -/
inductive Payload.Implements : Payload → InterfaceDescriptor → Prop where
  | task (t : Task) : Implements (.task t) taskDescriptor
  | project (q : Project Ref) : Implements (.project q) projectDescriptor
  | manager (q : Manager Ref) : Implements (.manager q) managerDescriptor

theorem State.SoundWith.implements {made : List Nat} {payload : Payload} (sound : s.SoundWith made)
    (has : s.heap.Has self) (hp : s.heap.payloadAt self.number = some payload)
    (htag : self.tag = .interface id) (hd : s.registry.interface? id = some d) :
    s.registry = TaskModel.registry ∧ payload.Implements d := by
  have registered := sound.registered has (by rw [htag]; rfl)
  have fits := sound.heap.fits_of_holds has hp
  rw [htag] at fits
  rw [registered.registry_eq] at hd
  refine ⟨registered.registry_eq, ?_⟩
  cases payload with
  | task t =>
    cases fits
    cases hd
    exact .task t
  | project q =>
    cases fits.1
    cases hd
    exact .project q
  | manager q =>
    cases fits.1
    cases hd
    exact .manager q
  | collection c =>
    have kind := fits.1
    cases hk : c.kind <;> rw [hk] at kind <;> cases kind
  | text value => cases fits
  | scripted content => cases fits

theorem Op.readProperty_complies (sound : s.Sound) (hb : s.handles.bound? h = some self)
    (htag : self.tag = .interface id) (hd : s.registry.interface? id = some d)
    (declared : d.property? name = some p) :
    (readProperty self name).Consults fixed s (s.registry.HasType p.ty) := by
  have holds := sound.holds_bound hb
  refine (payload_consults self).bind fun payload hp => ?_
  obtain ⟨registry_eq, implements⟩ := sound.implements holds.has hp htag hd
  rw [registry_eq]
  cases implements with
  | task t => exact (Task.property_answers declared).consults
  | project q => exact (Project.property_answers declared).consults
  | manager q => cases declared

theorem Op.writeProperty_complies {value : Value} (sound : s.Sound)
    (hb : s.handles.bound? h = some self) (htag : self.tag = .interface id)
    (hd : s.registry.interface? id = some d) (declared : d.property? name = some p)
    (writable : p.readOnly = false) (typed : s.registry.HasType p.ty value) :
    (writeProperty self name value).Complies fixed s fun _ _ => True := by
  have holds := sound.holds_bound hb
  refine (payload_consults self).bind fun payload hp => ?_
  obtain ⟨registry_eq, implements⟩ := sound.implements holds.has hp htag hd
  rw [registry_eq] at typed
  cases implements with
  | task t =>
    refine (Task.withProperty_answers declared writable typed).consults.bind fun t' _ => ?_
    exact replace_complies self (by exact trivial)
  | project q =>
    refine (Project.withProperty_answers declared writable typed).consults.bind fun q' _ => ?_
    exact replace_complies self (by exact trivial)
  | manager q => cases declared

theorem Op.callMethod_complies (sound : s.Sound) (hb : s.handles.bound? h = some self)
    (htag : self.tag = .interface id) (hd : s.registry.interface? id = some d)
    (declared : d.method? name = some m)
    (typed : List.Forall₂ (fun p value => s.registry.HasType p.ty value) m.parameters arguments) :
    (callMethod self name arguments).Complies fixed s
      fun value _ => s.registry.HasType m.returns value := by
  have holds := sound.holds_bound hb
  refine (payload_consults self).bind fun payload hp => ?_
  obtain ⟨registry_eq, implements⟩ := sound.implements holds.has hp htag hd
  rw [registry_eq] at typed ⊢
  cases implements with
  | task t =>
    refine complies_get ?_
    refine (Task.invoke_answers declared typed).consults.bind fun (value, t') result => ?_
    exact (replace_complies self (by exact trivial)).bind fun _ _ _ _ => complies_pure result
  | project q => exact Project.invoke_complies sound hb hp declared typed
  | manager q => exact Manager.invoke_complies sound hb hp declared typed

end Requests

end ObjectBoundary
