import ObjectBoundary.Proofs.Entry.Effects
import ObjectBoundary.Proofs.Persistence

/-!
# Where due dates come from

A due date that is set is checked, and a task that is created has none. The tasks of a file come
with whatever the file says. So a due date is empty or a date, or it was in a file when a call
loaded the task.
-/

namespace ObjectBoundary

open State

/-- A task of the content of a manager is an object. -/
theorem Heap.exists_payloadAt_of_archive {heap : Heap} {m : Manager Ref} {saved : Project Task}
    {task : Task} (project : saved ∈ (heap.archive m).projects) (member : task ∈ saved.tasks) :
    ∃ n, heap.payloadAt n = some (.task task) := by
  obtain ⟨⟨_, p⟩, _, rfl⟩ := List.mem_map.mp project
  obtain ⟨⟨ref, found⟩, listed, rfl⟩ := List.mem_map.mp member
  exact ⟨ref.number, payloadAt_of_mem_tasksOf listed⟩

namespace State

variable {s t : State} {n : Nat} {due : String}

/-- A task came with its due date from a file: it was made by a call that loads, when the due date
was in a file. -/
def CameWithFile (s : State) (n : Nat) (due : String) : Prop :=
  ∃ (u : State) (thread : Nat) (call : Call), u.Reachable ∧ call.Exported ∧ call.isLoad = true ∧
    u.files.Brings due ∧ u.heap.objects.length ≤ n ∧
    n < (u.perform thread call).2.heap.objects.length ∧ (u.perform thread call).2.Leads s

theorem CameWithFile.step (came : s.CameWithFile n due) (step : s.Step t) :
    t.CameWithFile n due := by
  obtain ⟨u, thread, call, reachable, exported, loads, brings, new, there, leads⟩ := came
  exact ⟨u, thread, call, reachable, exported, loads, brings, new, there, leads.step step⟩

/-- One step brings a due date that is checked, or one from a file. -/
theorem Step.dueAt (step : s.Step t) (reachable : s.Reachable) (found : t.dueAt n = some due) :
    s.dueAt n = some due ∨ Task.IsDueDate due ∨ t.CameWithFile n due := by
  cases step with
  | @call thread call exported =>
    have alters := perform_alters reachable.sound reachable.forest thread call
    rcases alters.dueAt found with old | valid | ⟨new, loads, brings⟩
    · exact .inl old
    · exact .inr (.inl valid)
    · obtain ⟨p, alive, _⟩ := Option.bind_eq_some_iff.mp found
      have there := Heap.lt_length_of_payloadAt alive
      exact .inr (.inr
        ⟨s, thread, call, reachable, exported, loads, brings, new, there, .refl⟩)
  | surroundings options files now => exact .inl found

theorem Reachable.dueAt (reachable : s.Reachable) (found : s.dueAt n = some due) :
    Task.IsDueDate due ∨ s.CameWithFile n due := by
  induction reachable with
  | refl => cases found
  | step reachable step ih =>
    rcases step.dueAt reachable found with old | valid | came
    · exact (ih old).imp_right fun came => came.step step
    · exact .inl valid
    · exact .inr came

/-- A file that is read as an archive is loaded, and brings its tasks as they stand in it. -/
theorem perform_load_tasks {h k : Handle} {self : Ref} {m : Manager Ref} {path text : String}
    {archive : Archive} {call : Call} (sound : s.Sound) (manages : s.Manages h self m)
    (spells : s.Spells k path) (asks : call.Asks .load h k) (thread : Nat)
    (read : s.files.read path = .ok text) (parsed : Manager.parse path text = .ok archive) :
    (s.perform thread call).1.reply = .bool true ∧
      ∀ saved ∈ archive.projects, ∀ task ∈ saved.tasks,
        ∃ n, (s.perform thread call).2.heap.payloadAt n = some (.task task) := by
  obtain ⟨reply, _, restocks⟩ :=
    perform_load_of_parse sound manages spells asks thread read parsed
  have sound' := (advanced_perform sound thread asks.exported).sound
  obtain ⟨_, _, same, _⟩ := restocks.content sound sound' manages.1
  refine ⟨reply, fun saved project task member => ?_⟩
  exact Heap.exists_payloadAt_of_archive (same ▸ project) member

/-- In every reachable state the due date of a task is empty or a date, unless the task was loaded
with it from a file. Whatever due dates are in a file, loading it succeeds and gives the tasks these
due dates. -/
theorem dueDate_checked_unless_loaded (reachable : s.Reachable) :
    (∀ (n : Nat) (t : Task), s.heap.payloadAt n = some (.task t) →
      Task.IsDueDate t.dueDate ∨ s.CameWithFile n t.dueDate) ∧
    ∀ (thread : Nat) (h k : Handle) (self : Ref) (m : Manager Ref) (path text : String)
      (archive : Archive) (call : Call), s.Manages h self m → s.Spells k path →
      call.Asks .load h k → s.files.read path = .ok text → Manager.parse path text = .ok archive →
      let loaded := s.perform thread call
      loaded.1.reply = .bool true ∧
        ∀ saved ∈ archive.projects, ∀ task ∈ saved.tasks,
          ∃ n, loaded.2.heap.payloadAt n = some (.task task) := by
  refine ⟨fun n t alive => ?_, ?_⟩
  · have found : s.dueAt n = some t.dueDate := by
      unfold State.dueAt
      rw [alive]
      rfl
    exact reachable.dueAt found
  · intro thread h k self m path text archive call manages spells asks read parsed
    exact perform_load_tasks reachable.sound manages spells asks thread read parsed

/-- A task of a file is due next week, which is no date. After the file is loaded there is a task
that is due then, and it came with the file. -/
theorem next_week_came_with_file :
    ¬ Task.IsDueDate "next week" ∧
      ∃ (s : State) (n : Nat) (t : Task), s.Reachable ∧ s.heap.payloadAt n = some (.task t) ∧
        t.dueDate = "next week" ∧ s.CameWithFile n "next week" := by
  have invalid : ¬ Task.IsDueDate "next week" := by
    unfold Task.IsDueDate
    decide +kernel
  let task : Task := { id := "task-1", title := "", createdAt := "", dueDate := "next week" }
  let archive : Archive := { projects := [{ id := "proj-1", name := "", tasks := [task] }] }
  obtain ⟨files, read⟩ := Files.exists_read (Manager.print archive)
  let start := performAll {} [(0, .createAs .manager), (0, .createText (.text "tasks.json"))]
  let manager : Ref := ⟨0, .interface TaskModel.ids.manager⟩
  have facts : start.handles.bound? ⟨0x100000001⟩ = some manager ∧
      start.heap.manager? manager = some {} ∧
      start.handles.bound? ⟨0x100000002⟩ = some ⟨1, .string⟩ ∧
      start.text? ⟨1, .string⟩ = some "tasks.json" := by
    decide +kernel
  obtain ⟨bound, manages, bound', known⟩ := facts
  have started : start.Reachable := by
    refine Leads.refl.performAll fun call hcall => ?_
    simp only [List.mem_cons, List.not_mem_nil, or_false] at hcall
    rcases hcall with rfl | rfl
    · exact .of_symbol "ITaskManager_Create" [] rfl
    · exact .of_symbol "idlbridge_string_create" [.text _] rfl
  clear_value start
  let s : State := { start with options := start.options, files := files, now := start.now }
  have reachable : s.Reachable := started.step (.surroundings _ files _)
  have asks : Call.Asks .load ⟨0x100000001⟩ ⟨0x100000002⟩
      (.member FileMethod.load.binding ⟨0x100000001⟩ [.handle ⟨0x100000002⟩]) := .typed
  obtain ⟨_, brought⟩ := (dueDate_checked_unless_loaded reachable).2 0 _ _ manager {} "tasks.json" _
    archive _ ⟨bound, manages⟩ ⟨_, bound', text?_eq_some_iff.mp known⟩ asks read
    (Manager.parse_print _ archive)
  obtain ⟨n, alive⟩ := brought _ List.mem_cons_self task List.mem_cons_self
  have reachable' := Leads.step reachable (.call 0 asks.exported)
  have came := ((dueDate_checked_unless_loaded reachable').1 n task alive).resolve_left invalid
  exact ⟨invalid, _, n, task, reachable', alive, rfl, came⟩

end State

end ObjectBoundary
