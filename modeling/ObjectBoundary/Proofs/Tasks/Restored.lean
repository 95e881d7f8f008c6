import ObjectBoundary.Proofs.Files
import ObjectBoundary.Proofs.Tasks.Live
import ObjectBoundary.Proofs.Tasks.Members
import ObjectBoundary.Proofs.Tasks.Record

/-!
# Restored projects

Loading a file makes every project and every task in it anew. `Heap.NewProject` says of an object
that was not there before that it has the content of a saved project and that all its tasks are as
new. A manager that lists such projects has the content that was saved.
-/

namespace ObjectBoundary

open Op State

/-- A live project with the content of a saved one and with given tasks. -/
def Project.listing (saved : Project Task) (tasks : List Ref) : Project Ref :=
  { id := saved.id, name := saved.name, description := saved.description, active := saved.active
    tasks }

namespace Heap

variable {heap after : Heap} {ref : Ref} {first : Nat} {task : Task} {saved : Project Task}

/-- An object has one tag. -/
theorem Has.eq_of_number {other : Ref} (has : heap.Has ref) (has' : heap.Has other)
    (number_eq : ref.number = other.number) : ref = other := by
  obtain ⟨number, tag⟩ := ref
  obtain ⟨number', tag'⟩ := other
  cases number_eq
  cases has.symm.trans has'
  rfl

/-! ### New objects -/

/-- An object from a number on that is a task. -/
def NewTask (heap : Heap) (first : Nat) (ref : Ref) (task : Task) : Prop :=
  first ≤ ref.number ∧ heap.payloadAt ref.number = some (.task task)

/-- An object from a number on that is a project with the content of a saved one, and so are all its
tasks. -/
def NewProject (heap : Heap) (first : Nat) (ref : Ref) (saved : Project Task) : Prop :=
  first ≤ ref.number ∧ ∃ tasks, heap.payloadAt ref.number = some (.project (saved.listing tasks)) ∧
    List.Forall₂ (heap.NewTask first) tasks saved.tasks

theorem Grown.payloadAt_eq (grown : Grown heap after) {n : Nat} {p : Payload}
    (hp : heap.payloadAt n = some p) : after.payloadAt n = some p :=
  (grown.payload n (lt_length_of_payloadAt hp)).trans hp

theorem NewTask.grown {first' : Nat} (new : heap.NewTask first ref task)
    (grown : Grown heap after) (le : first' ≤ first) : after.NewTask first' ref task :=
  ⟨Nat.le_trans le new.1, grown.payloadAt_eq new.2⟩

theorem NewProject.grown {first' : Nat} (new : heap.NewProject first ref saved)
    (grown : Grown heap after) (le : first' ≤ first) : after.NewProject first' ref saved := by
  obtain ⟨there, tasks, hp, each⟩ := new
  exact ⟨Nat.le_trans le there, tasks, grown.payloadAt_eq hp,
    each.imp fun _ _ task => task.grown grown le⟩

/-- Where objects from a number on are as they were unless they are gone, a project that is there
has its tasks. -/
theorem NewProject.of_holds {held : Nat → Nat} {made : List Nat}
    (new : heap.NewProject first ref saved) (sound : Sound held made after)
    (same : ∀ n, first ≤ n → (after.payloadAt n).isSome → after.payloadAt n = heap.payloadAt n)
    (holds : after.Holds ref) : after.NewProject first ref saved := by
  obtain ⟨there, tasks, hp, each⟩ := new
  have hp' : after.payloadAt ref.number = some (.project (saved.listing tasks)) :=
    (same ref.number there holds.alive).trans hp
  have alive : ∀ r ∈ tasks, (after.payloadAt r.number).isSome :=
    fun r hr => (sound.holds_owned hp' hr).alive
  refine ⟨there, tasks, hp', ?_⟩
  refine ((List.forall₂_and_left _ _).mpr ⟨alive, each⟩).imp ?_
  rintro r task ⟨alive, new⟩
  exact ⟨new.1, (same r.number new.1 alive).trans new.2⟩

/-! ### What a manager of new projects holds -/

/-- The projects of a manager and the tasks of these have numbers from a number on. -/
def ListsFrom (heap : Heap) (first : Nat) (m : Manager Ref) : Prop :=
  ∀ ref ∈ m.projects, first ≤ ref.number ∧ ∃ p, heap.project? ref = some p ∧
    ∀ r ∈ p.tasks, first ≤ r.number ∧ (heap.task? r).isSome

/-- What is found behind a list of references, when something is behind each. -/
theorem map_filterMap_found {α β : Type} {look : Ref → Option α} {view : α → β} {refs : List Ref}
    {items : List β}
    (each : List.Forall₂ (fun ref b => ∃ a, look ref = some a ∧ view a = b) refs items) :
    (refs.filterMap fun ref => (look ref).map (ref, ·)).map (fun found => view found.2) =
      items := by
  induction each with
  | nil => rfl
  | cons first _ ih =>
    obtain ⟨a, found, rfl⟩ := first
    simp [found, ih]

theorem archiveProject_listing {tasks : List Ref}
    (each : List.Forall₂ (heap.NewTask first) tasks saved.tasks) :
    heap.archiveProject (saved.listing tasks) = saved := by
  have listed : (heap.tasksOf (saved.listing tasks)).map (·.2) = saved.tasks :=
    map_filterMap_found (each.imp fun _ task new => ⟨task, task?_eq_some_iff.mpr new.2, rfl⟩)
  simp only [archiveProject, listed]
  rfl

/-- A manager of new projects has the content from which they were made. -/
theorem archive_eq_of_new {archive : Archive} {projects : List Ref}
    (each : List.Forall₂ (heap.NewProject first) projects archive.projects) :
    heap.archive { settings := archive.settings, projects } = archive := by
  have listed : (heap.projectsOf { settings := archive.settings, projects }).map
      (fun found => heap.archiveProject found.2) = archive.projects := by
    refine map_filterMap_found (each.imp fun ref saved new => ?_)
    obtain ⟨_, tasks, hp, hr⟩ := new
    exact ⟨_, project?_eq_some_iff.mpr hp, archiveProject_listing hr⟩
  simp only [Heap.archive, listed]

theorem listsFrom_of_new {archive : Archive} {projects : List Ref}
    (each : List.Forall₂ (heap.NewProject first) projects archive.projects) :
    heap.ListsFrom first { settings := archive.settings, projects } := by
  intro ref member
  obtain ⟨_, _, there, tasks, hp, tasks_new⟩ := mem_left_of_forall₂ each member
  refine ⟨there, _, project?_eq_some_iff.mpr hp, fun r hr => ?_⟩
  obtain ⟨_, _, there, ht⟩ := mem_left_of_forall₂ tasks_new hr
  exact ⟨there, by rw [task?_eq_some_iff.mpr ht]; rfl⟩

/-- An object that is still there after a replacement has its payload, or the new one. -/
theorem payloadAt_replace_of_alive {p : Payload} {n : Nat}
    (there : ref.number < heap.objects.length)
    (alive : ((heap.replace ref p).payloadAt n).isSome) :
    (heap.replace ref p).payloadAt n = if ref.number = n then some p else heap.payloadAt n := by
  have found : heap.object? ref = some heap.objects[ref.number] := List.getElem?_eq_getElem there
  have retained : ref.number < (heap.retainAll p.refs).objects.length := by simpa using there
  have placed := payloadAt_setPayload retained p n
  rw [payloadAt_retainAll] at placed
  simp only [Heap.replace, found] at alive ⊢
  have kept := Kept.releaseAll ((heap.retainAll p.refs).setPayload ref p)
    heap.objects[ref.number].refs
  have small : n < ((heap.retainAll p.refs).setPayload ref p).objects.length := by
    obtain ⟨q, hq⟩ := Option.isSome_iff_exists.mp alive
    have bound := lt_length_of_payloadAt hq
    rwa [length_releaseAll] at bound
  rcases kept.payload n small with same | gone
  · rw [same, placed]
  · rw [gone] at alive
    cases alive

end Heap

/-! ### Restoring -/

namespace Op

variable {s : State} {bad : Failure → State → Prop}

/-- Making objects one after another, each of which stays as it was made. -/
theorem mapM_restores {α : Type} {f : α → Op Ref} (made : Heap → Nat → Ref → α → Prop)
    (grown : ∀ {heap after : Heap} {first first' : Nat} {ref : Ref} {a : α},
      made heap first ref a → Heap.Grown heap after → first' ≤ first → made after first' ref a)
    (each : ∀ a s, (f a).Meets s
      (fun ref t => s.Quiet t ∧ made t.heap s.heap.objects.length ref a) bad) (items : List α) :
    (items.mapM f).Meets s
      (fun refs t => s.Quiet t ∧ List.Forall₂ (made t.heap s.heap.objects.length) refs items)
      bad := by
  induction items generalizing s with
  | nil => exact meets_pure ⟨Quiet.refl s, .nil⟩
  | cons item items ih =>
    rw [List.mapM_cons]
    refine (each item s).bind fun ref t ⟨quiet, new⟩ => ?_
    refine (ih (s := t)).bind fun refs u ⟨quiet', others⟩ => ?_
    refine meets_pure ⟨quiet.trans quiet', .cons ?_ ?_⟩
    · exact grown new quiet'.grown (Nat.le_refl _)
    · exact others.imp fun _ _ new => grown new (Heap.Grown.refl _) quiet.grown.length_le

/-- A new object stands at the first free number. -/
theorem create_quiet (tag : Tag) (p : Payload) :
    (create tag p).Meets s
      (fun ref t => s.Quiet t ∧ s.heap.objects.length ≤ ref.number ∧
        t.heap.payloadAt ref.number = some p) bad :=
  meets_of_run (run_create s tag p)
    ⟨quiet_withNew s tag p, Nat.le_refl _, payloadAt_withNew s tag p⟩

end Op

/-- A project is restored with the content that was saved. -/
theorem Project.restore_new {s : State} {bad : Failure → State → Prop} (ids : TaskIds)
    (saved : Project Task) :
    (Project.restore ids saved).Meets s
      (fun ref t => s.Quiet t ∧ t.heap.NewProject s.heap.objects.length ref saved) bad := by
  have eachTask : ∀ (task : Task) s,
      (do modify (·.observeId task.id); newTask ids task : Op Ref).Meets s
        (fun ref t => s.Quiet t ∧ t.heap.NewTask s.heap.objects.length ref task) bad := by
    intro task s
    have observed := quiet_observeId s task.id
    refine meets_modify ((create_quiet _ _).ok_imp fun ref t ⟨quiet, there, hp⟩ => ?_)
    exact ⟨observed.trans quiet, Nat.le_trans observed.grown.length_le there, hp⟩
  refine (mapM_restores Heap.NewTask Heap.NewTask.grown eachTask saved.tasks).bind
    fun tasks t ⟨quiet, each⟩ => ?_
  have observed := quiet.trans (quiet_observeId t saved.id)
  refine meets_modify ((create_quiet _ _).ok_imp fun ref u ⟨made, there, hp⟩ => ?_)
  have whole := observed.trans made
  refine ⟨whole, Nat.le_trans observed.grown.length_le there, tasks, hp, ?_⟩
  exact each.imp fun _ _ new =>
    new.grown ((quiet_observeId t saved.id).trans made).grown (Nat.le_refl _)

namespace State

/-- An archive is in a file, and no object and no handle has changed. -/
structure Saves (s : State) (path : String) (archive : Archive) (t : State) : Prop where
  read : t.files.read path = .ok (Manager.print archive)
  heap_eq : t.heap = s.heap
  handles_eq : t.handles = s.handles

/-- A manager lists new projects with the content of an archive, and nothing else has changed but
what was dropped with its old ones. -/
structure Restocks (s : State) (manager : Ref) (archive : Archive) (t : State) : Prop where
  handles_eq : t.handles = s.handles
  stocked : ∃ heap projects, s.heap.Grown heap ∧
    List.Forall₂ (heap.NewProject s.heap.objects.length) projects archive.projects ∧
    t.heap = heap.replace manager (.manager { settings := archive.settings, projects })

variable {s t : State} {h : Handle} {self : Ref} {archive : Archive}

/-- What has a live handle is as it was, apart from the manager itself. -/
theorem Restocks.payloadAt_eq (restocks : s.Restocks self archive t) (sound : s.Sound)
    (sound' : t.Sound) (hb : s.handles.bound? h = some self) {k : Handle} {ref : Ref}
    (hk : s.handles.bound? k = some ref) (other : ref.number ≠ self.number) :
    t.heap.payloadAt ref.number = s.heap.payloadAt ref.number := by
  obtain ⟨handles_eq, heap, projects, grown, _, heap_eq⟩ := restocks
  have there := Nat.lt_of_lt_of_le (sound.has hb).lt_length grown.length_le
  have alive := (sound'.holds_bound (handles_eq ▸ hk)).alive
  rw [heap_eq] at alive ⊢
  rw [Heap.payloadAt_replace_of_alive there alive, if_neg other.symm]
  exact grown.payload ref.number (sound.has hk).lt_length

/-- The manager has the content of the archive, and all that it lists is new. -/
theorem Restocks.content (restocks : s.Restocks self archive t) (sound : s.Sound)
    (sound' : t.Sound) (hb : s.handles.bound? h = some self) :
    ∃ m, t.heap.payloadAt self.number = some (.manager m) ∧ t.heap.archive m = archive ∧
      t.heap.ListsFrom s.heap.objects.length m := by
  obtain ⟨handles_eq, heap, projects, grown, each, heap_eq⟩ := restocks
  have old := (sound.has hb).lt_length
  have there := Nat.lt_of_lt_of_le old grown.length_le
  have replaced : ∀ n, (t.heap.payloadAt n).isSome → t.heap.payloadAt n =
      if self.number = n then some (.manager { settings := archive.settings, projects })
      else heap.payloadAt n := by
    rw [heap_eq]
    exact fun n alive => Heap.payloadAt_replace_of_alive there alive
  have hm := replaced self.number (sound'.holds_bound (handles_eq ▸ hb)).alive
  rw [if_pos rfl] at hm
  -- The manager is older than the projects, so that they are not replaced with it.
  have same : ∀ n, s.heap.objects.length ≤ n → (t.heap.payloadAt n).isSome →
      t.heap.payloadAt n = heap.payloadAt n := by
    intro n hn alive
    rw [replaced n alive, if_neg (by omega)]
  have holds : ∀ r ∈ projects, t.heap.Holds r := fun r hr => sound'.heap.holds_owned hm hr
  have new := ((List.forall₂_and_left _ _).mpr ⟨holds, each⟩).imp
    fun _ _ ⟨holds, new⟩ => new.of_holds sound'.heap same holds
  exact ⟨_, hm, Heap.archive_eq_of_new new, Heap.listsFrom_of_new new⟩

end State

namespace Manager

variable {s : State} {self : Ref} {path text : String} {archive : Archive}

/-- A manager saves its content, or the file cannot be written. -/
theorem save_saves (m : Manager Ref) (path : String) :
    (m.save path).Meets s (fun _ t => s.Saves path (s.heap.archive m) t) fun _ _ =>
      ∃ cause, s.files.write path (Manager.print (s.heap.archive m)) = .error cause := by
  refine meets_get ?_
  split
  · next files written =>
    exact meets_of_run (run_set s _) ⟨Files.read_of_write written, rfl, rfl⟩
  · next cause refused => exact meets_fail ⟨cause, refused⟩

/-- A file that is read as an archive is loaded without a step that could fail. -/
theorem load_restocks (registered : s.Registered)
    (read : s.files.read path = .ok text) (parsed : Manager.parse path text = .ok archive) :
    (Manager.load self path).Meets s (fun _ t => s.Restocks self archive t) fun _ _ => False := by
  refine meets_get ?_
  rw [read]
  have consented : s.run (consent (Manager.parse path text)) = (.ok archive, s) := by
    rw [parsed]
    rfl
  refine meets_run (run_pure s _) (meets_run consented (meets_run registered.run_nativeIds ?_))
  refine (mapM_restores Heap.NewProject Heap.NewProject.grown
    (fun saved s => Project.restore_new _ saved) archive.projects).bind
      fun projects t ⟨quiet, each⟩ => ?_
  exact meets_of_run (run_replace t self _)
    ⟨quiet.handles_eq, t.heap, projects, quiet.grown, each, rfl⟩

end Manager

end ObjectBoundary
