import ObjectBoundary.Proofs.Tasks.Lists
import ObjectBoundary.Proofs.Text.Lowercase

/-!
# Searching for tasks

A search goes through the tasks of a manager in their order and keeps those in which the query
occurs once both are in lower case. A query that occurs in a text as it stands is found there too,
as long as lower-casing the text around it does not change its sigmas.
-/

namespace ObjectBoundary

open Text (isBlank trim lowercase SigmasStand)

def Task.searched (t : Task) : List String := t.title :: t.description :: t.tags

theorem Task.isMatch_iff {t : Task} {needle : String} :
    t.isMatch needle = true ↔
      ∃ text ∈ t.searched, needle.toList <:+: (lowercase text).toList := by
  simp only [isMatch, searched, Text.contains, Text.hasPiece_iff, Bool.or_eq_true, List.any_eq_true,
    List.exists_mem_cons_iff, or_assoc]

/-- A text that contains a query, with sigmas that stand, contains it in lower case. -/
theorem Text.lowercase_infix {query text : String} {before after : List Char}
    (occurs : text.toList = before ++ query.toList ++ after)
    (stand : SigmasStand before query.toList after) :
    (lowercase query).toList <:+: (lowercase text).toList := by
  simp only [lowercase, String.toList_ofList, occurs]
  exact lowerFrom_infix stand

namespace Heap

variable {heap : Heap} {m : Manager Ref} {query : String}

theorem mem_search_iff {found : Ref × Task} : found ∈ heap.search m query ↔
    found ∈ heap.allTasks m ∧ ∃ text ∈ found.2.searched,
      (lowercase (trim query)).toList <:+: (lowercase text).toList := by
  unfold search
  rw [List.mem_filter, Task.isMatch_iff]

/-- Each text contains a query of blanks. -/
theorem search_blank (blank : ∀ c ∈ query.toList, isBlank c = true) :
    heap.search m query = heap.allTasks m := by
  refine List.filter_eq_self.mpr fun found _ => Task.isMatch_iff.mpr ?_
  refine ⟨found.2.title, List.mem_cons_self, ?_⟩
  have nothing : trim query = "" := by rw [trim, Text.trimChars_of_isBlank blank]
  rw [nothing]
  exact List.nil_infix

end Heap

namespace State

variable {s : State} {n : Nat} {m : Manager Ref}

/-- In every reachable state a search keeps of all tasks of a manager, in their order, those in
which the query without the blanks around it occurs in lower case; a query of blanks keeps all of
them. It finds each task with a text in which the query occurs as it stands, unless the query has a
capital sigma that is final there and not in the query, or the other way. All tasks are those of one
project after another, projects and tasks in the order in which they were made. -/
theorem search_finds (reachable : s.Reachable)
    (old : s.heap.payloadAt n = some (.manager m)) (query : String) :
    let tasks := s.heap.allTasks m
    let projects := s.heap.projectsOf m
    let found := s.heap.search m query
    found.Sublist tasks ∧
    (∀ task, task ∈ found ↔ task ∈ tasks ∧ ∃ text ∈ task.2.searched,
      (lowercase (trim query)).toList <:+: (lowercase text).toList) ∧
    ((∀ c ∈ query.toList, isBlank c = true) → found = tasks) ∧
    (∀ task ∈ tasks, ∀ text ∈ task.2.searched, ∀ before after : List Char,
      text.toList = before ++ (trim query).toList ++ after →
      SigmasStand before (trim query).toList after → task ∈ found) ∧
    ('Σ' ∉ (trim query).toList → ∀ task ∈ tasks, ∀ text ∈ task.2.searched,
      (trim query).toList <:+: text.toList → task ∈ found) ∧
    tasks = projects.flatMap (fun project => s.heap.tasksOf project.2) ∧
    projects.map (·.1) = m.projects ∧ Chronological m.projects ∧
    ∀ project ∈ projects, (s.heap.tasksOf project.2).map (·.1) = project.2.tasks ∧
      Chronological project.2.tasks := by
  have sound := reachable.sound
  have occurring : ∀ task ∈ s.heap.allTasks m, ∀ text ∈ task.2.searched,
      ∀ before after : List Char, text.toList = before ++ (trim query).toList ++ after →
      SigmasStand before (trim query).toList after → task ∈ s.heap.search m query :=
    fun task member text searched before after occurs stand =>
      Heap.mem_search_iff.mpr ⟨member, text, searched, Text.lowercase_infix occurs stand⟩
  refine ⟨List.filter_sublist, fun _ => Heap.mem_search_iff, Heap.search_blank, occurring, ?_, rfl,
    sound.map_projectsOf old, reachable.forest.chronological old, ?_⟩
  · rintro plain task member text searched ⟨before, after, occurs⟩
    exact occurring task member text searched before after occurs.symm
      (Text.sigmasStand_of_not_mem plain)
  · rintro ⟨ref, p⟩ listed
    obtain ⟨_, alive⟩ := Heap.mem_of_mem_projectsOf listed
    exact ⟨sound.map_tasksOf alive, reachable.forest.chronological alive⟩

/-- A whole word is found, and its last letter alone is not, since the sigma is final in the word
only. -/
theorem lone_sigma_not_found :
    let text : Handle := ⟨0x100000002⟩
    let createProject : Binding :=
      ⟨"ITaskManager_CreateProject", .manager, "CreateProject", .call [.handle] (some .handle)⟩
    let createTask : Binding :=
      ⟨"IProject_CreateTask", .project, "CreateTask", .call [.handle, .handle] (some .handle)⟩
    let s := performAll {} [(0, .createAs .manager), (0, .createText (.text "ΟΔΟΣ ΜΟΥ")),
      (0, .member createProject ⟨0x100000001⟩ [.handle text]),
      (0, .member createTask ⟨0x100000003⟩ [.handle text, .handle text])]
    ∃ m task, s.heap.payloadAt 0 = some (.manager m) ∧ task ∈ s.heap.allTasks m ∧
      task.2.title = "ΟΔΟΣ ΜΟΥ" ∧ task ∈ s.heap.search m " ΟΔΟΣ" ∧ s.heap.search m "Σ" = [] := by
  dsimp only
  generalize built : performAll _ _ = s
  have reachable : s.Reachable := by
    rw [← built]
    refine Leads.refl.performAll fun call hcall => ?_
    simp only [List.mem_cons, List.not_mem_nil, or_false] at hcall
    rcases hcall with rfl | rfl | rfl | rfl
    · exact .of_symbol "ITaskManager_Create" [] rfl
    · exact .of_symbol "idlbridge_string_create" [.text _] rfl
    · exact .of_symbol "ITaskManager_CreateProject" [.handle _, .handle _] rfl
    · exact .of_symbol "IProject_CreateTask" [.handle _, .handle _, .handle _] rfl
  let m : Manager Ref := { projects := [⟨2, .interface TaskModel.ids.project⟩] }
  have facts : s.heap.manager? ⟨0, .interface TaskModel.ids.manager⟩ = some m ∧
      (s.heap.allTasks m).map (·.2.title) = ["ΟΔΟΣ ΜΟΥ"] ∧
      (s.heap.search m "Σ").isEmpty = true := by
    rw [← built]
    decide +kernel
  obtain ⟨managed, titles, none⟩ := facts
  have old := Heap.manager?_eq_some_iff.mp managed
  obtain ⟨task, member, title⟩ := List.mem_map.mp (titles ▸ List.mem_cons_self)
  have asked : (trim " ΟΔΟΣ").toList = "ΟΔΟΣ".toList := by decide +kernel
  have occurs : task.2.title.toList = [] ++ (trim " ΟΔΟΣ").toList ++ " ΜΟΥ".toList := by
    rw [title, asked]
    decide +kernel
  have apart : Text.meetsCased [] = false ∧ Text.meetsCased " ΜΟΥ".toList = false := by
    decide +kernel
  obtain ⟨_, _, _, occurring, _⟩ := search_finds reachable old " ΟΔΟΣ"
  exact ⟨m, task, old, member, title, occurring task member _ List.mem_cons_self [] _ occurs
    (Text.sigmasStand_of_apart apart.1 apart.2), List.isEmpty_iff.mp none⟩

end State

end ObjectBoundary
