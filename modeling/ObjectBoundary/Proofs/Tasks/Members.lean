import ObjectBoundary.Proofs.Marshal.Reading
import ObjectBoundary.Proofs.Model.Items

/-!
# Members of tasks, projects and managers

What the members give refers to nothing, or to the tasks and projects that the lists hold. Setting a
property does not touch the lists.
-/

namespace ObjectBoundary

theorem Value.itemRefs_texts (texts : List String) : Value.itemRefs (texts.map .str) = [] := by
  induction texts with
  | nil => rfl
  | cons text texts ih => simp [Value.itemRefs, Value.refs, ih]

namespace Task

theorem refs_dictOf (map : TextMap) : (dictOf map).refs = [] := by
  have entries : ∀ entries : List (String × String),
      Value.entryRefs (entries.map fun entry => (.str entry.1, .str entry.2)) = [] := by
    intro entries
    induction entries with
    | nil => rfl
    | cons entry entries ih => simp [Value.entryRefs, Value.refs, ih]
  exact entries map.entries

theorem refs_property {t : Task} {name : String} {value : Value}
    (h : t.property name = .ok value) : value.refs = [] := by
  unfold property at h
  split at h
  all_goals cases h
  all_goals first
    | rfl
    | exact Value.itemRefs_texts _

/-- A due date is empty, or it is a text that gives a date. -/
def IsDueDate (text : String) : Prop := text = "" ∨ (Date.parse? text).isSome = true

theorem checkDueDate_eq_ok_iff {text due : String} :
    checkDueDate text = .ok due ↔ due = text ∧ IsDueDate text := by
  unfold checkDueDate IsDueDate
  by_cases valid : (text.isEmpty || (Date.parse? text).isSome) = true
  · have valid' : text = "" ∨ (Date.parse? text).isSome = true := by simpa using valid
    rw [if_pos valid, Except.ok.injEq, and_iff_left valid']
    exact eq_comm
  · have invalid : ¬ (text = "" ∨ (Date.parse? text).isSome = true) := by simpa using valid
    rw [if_neg valid]
    simp [invalid]

/-- Setting a property keeps the due date or checks the new one. -/
theorem dueDate_withProperty {t t' : Task} {name : String} {value : Value}
    (h : t.withProperty name value = .ok t') :
    t'.dueDate = t.dueDate ∨ IsDueDate t'.dueDate := by
  unfold withProperty at h
  split at h
  case h_4 =>
    obtain ⟨text, _, h⟩ := bind_eq_ok_iff.mp h
    obtain ⟨due, checked, h⟩ := bind_eq_ok_iff.mp h
    cases h
    obtain ⟨rfl, valid⟩ := checkDueDate_eq_ok_iff.mp checked
    exact .inr valid
  case h_6 => cases h
  all_goals
    obtain ⟨_, _, h⟩ := bind_eq_ok_iff.mp h
    try obtain ⟨_, _, h⟩ := bind_eq_ok_iff.mp h
    cases h
    exact .inl rfl

/-- A method gives nothing or a truth value, or it leaves the task as it is. -/
theorem invoke_cases {t t' : Task} {today : Date} {method : String} {arguments : List Value}
    {value : Value} (h : t.invoke today method arguments = .ok (value, t')) :
    value.refs = [] ∧
      (t' = t ∨ value = .void ∧ method ∈ ["Complete", "Cancel", "SetMetadata"]) := by
  unfold invoke at h
  split at h
  · obtain ⟨completed, _, h⟩ := bind_eq_ok_iff.mp h
    cases h
    exact ⟨rfl, .inr ⟨rfl, by simp⟩⟩
  · obtain ⟨cancelled, _, h⟩ := bind_eq_ok_iff.mp h
    cases h
    exact ⟨rfl, .inr ⟨rfl, by simp⟩⟩
  · cases h
    exact ⟨rfl, .inl rfl⟩
  · cases h
    exact ⟨refs_dictOf _, .inl rfl⟩
  · obtain ⟨first, _, h⟩ := bind_eq_ok_iff.mp h
    obtain ⟨key, _, h⟩ := bind_eq_ok_iff.mp h
    obtain ⟨second, _, h⟩ := bind_eq_ok_iff.mp h
    obtain ⟨content, _, h⟩ := bind_eq_ok_iff.mp h
    cases h
    exact ⟨rfl, .inr ⟨rfl, by simp⟩⟩
  · cases h

end Task

namespace Project

variable {τ : Type}

theorem refs_property {p : Project τ} {name : String} {value : Value}
    (h : p.property name = .ok value) : value.refs = [] := by
  unfold property at h
  split at h
  all_goals cases h
  all_goals rfl

theorem tasks_withProperty {p p' : Project τ} {name : String} {value : Value}
    (h : p.withProperty name value = .ok p') : p'.tasks = p.tasks := by
  unfold withProperty at h
  split at h
  case h_4 => cases h
  all_goals
    obtain ⟨content, _, h⟩ := bind_eq_ok_iff.mp h
    cases h
    rfl

end Project

/-! ### What the lists hold -/

section Lists

variable {heap : Heap} {p : Project Ref} {m : Manager Ref} {ref : Ref}

theorem Heap.task?_eq_some_iff {t : Task} :
    heap.task? ref = some t ↔ heap.payloadAt ref.number = some (.task t) := by
  rw [Heap.task?, Heap.payload?_eq_payloadAt]
  cases heap.payloadAt ref.number with
  | none => simp
  | some payload => cases payload <;> simp

theorem Heap.project?_eq_some_iff {q : Project Ref} :
    heap.project? ref = some q ↔ heap.payloadAt ref.number = some (.project q) := by
  rw [Heap.project?, Heap.payload?_eq_payloadAt]
  cases heap.payloadAt ref.number with
  | none => simp
  | some payload => cases payload <;> simp

theorem Heap.manager?_eq_some_iff :
    heap.manager? ref = some m ↔ heap.payloadAt ref.number = some (.manager m) := by
  rw [Heap.manager?, Heap.payload?_eq_payloadAt]
  cases heap.payloadAt ref.number with
  | none => simp
  | some payload => cases payload <;> simp

theorem Heap.mem_of_mem_tasksOf {t : Task} (h : (ref, t) ∈ heap.tasksOf p) : ref ∈ p.tasks := by
  obtain ⟨r, hr, hfound⟩ := List.mem_filterMap.mp h
  obtain ⟨_, _, heq⟩ := Option.map_eq_some_iff.mp hfound
  cases heq
  exact hr

theorem Heap.mem_of_mem_projectsOf {q : Project Ref} (h : (ref, q) ∈ heap.projectsOf m) :
    ref ∈ m.projects ∧ heap.payloadAt ref.number = some (.project q) := by
  obtain ⟨r, hr, hfound⟩ := List.mem_filterMap.mp h
  obtain ⟨q', hq, heq⟩ := Option.map_eq_some_iff.mp hfound
  cases heq
  exact ⟨hr, Heap.project?_eq_some_iff.mp hq⟩

end Lists

namespace State

variable {s : State} {made : List Nat} {ref : Ref}

/-- The tasks of a project that has not been destroyed. -/
theorem SoundWith.task_held (sound : s.SoundWith made) {p : Project Ref} (has : s.heap.Has ref)
    (hp : s.heap.payloadAt ref.number = some (.project p)) {r : Ref} (hr : r ∈ p.tasks) :
    s.heap.Holds r ∧ r.tag = .interface TaskModel.ids.task :=
  ⟨sound.heap.holds_owned hp hr, (sound.heap.fits_of_holds has hp).2 r hr⟩

/-- The projects of a manager that has not been destroyed. -/
theorem SoundWith.project_held (sound : s.SoundWith made) {m : Manager Ref} (has : s.heap.Has ref)
    (hm : s.heap.payloadAt ref.number = some (.manager m)) {r : Ref} (hr : r ∈ m.projects) :
    s.heap.Holds r ∧ r.tag = .interface TaskModel.ids.project :=
  ⟨sound.heap.holds_owned hm hr, (sound.heap.fits_of_holds has hm).2 r hr⟩

/-- The tasks of all projects of a manager. -/
theorem SoundWith.allTasks_held (sound : s.SoundWith made) {m : Manager Ref} (has : s.heap.Has ref)
    (hm : s.heap.payloadAt ref.number = some (.manager m)) {r : Ref} {t : Task}
    (hr : (r, t) ∈ s.heap.allTasks m) :
    s.heap.Holds r ∧ r.tag = .interface TaskModel.ids.task := by
  obtain ⟨⟨q, content⟩, hq, hr⟩ := List.mem_flatMap.mp hr
  obtain ⟨hmem, hpayload⟩ := Heap.mem_of_mem_projectsOf hq
  exact sound.task_held (sound.project_held has hm hmem).1.has hpayload
    (Heap.mem_of_mem_tasksOf hr)

end State

/-- The references in an array of objects. -/
theorem Project.mem_refs_objectArray {α : Type} {items : List (Ref × α)} {ref : Ref}
    (h : ref ∈ (Project.objectArray items).refs) : ∃ a, (ref, a) ∈ items := by
  obtain ⟨item, hitem, hr⟩ := Value.mem_itemRefs.mp h
  obtain ⟨⟨r, a⟩, hmem, rfl⟩ := List.mem_map.mp hitem
  rw [List.mem_singleton.mp hr]
  exact ⟨a, hmem⟩

theorem Op.readProperty_finds {s : State} {ref : Ref} (sound : s.Sound) (holds : s.heap.Holds ref)
    (name : String) :
    (Op.readProperty ref name).Finds s fun value => s.heap.Carries value.refs := by
  refine (payload_finds holds).bind fun p hp => ?_
  have plain : ∀ value : Value, value.refs = [] → s.heap.Carries value.refs := by
    intro value hrefs
    rw [hrefs]
    exact Heap.carries_nil _
  cases p with
  | task t => exact finds_consent fun value h => plain value (Task.refs_property h)
  | project q => exact finds_consent fun value h => plain value (Project.refs_property h)
  | manager m => exact finds_fail rfl
  | scripted content => cases sound.heap.fits_of_holds holds.has hp
  | text value => exact finds_get (finds_fail rfl)
  | collection c => exact finds_get (finds_fail rfl)

end ObjectBoundary
