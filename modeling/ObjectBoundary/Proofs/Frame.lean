import ObjectBoundary.Proofs.Entry.Effects

/-!
# What calls leave alone

A call changes the object behind its first handle and makes new ones. Every other object that is
still there afterwards is as it was, and no object is ever on the lists of projects and managers
twice.
-/

namespace ObjectBoundary.State

/-- Calls that are about other objects than one, in any order, while the surroundings change. -/
inductive LeadsBeside (n : Nat) (s : State) : State → Prop where
  | refl : LeadsBeside n s s
  | call {t : State} (leads : LeadsBeside n s t) (thread : Nat) {call : Call}
      (exported : call.Exported) (beside : t.subject? call ≠ some n) :
      LeadsBeside n s (t.perform thread call).2
  | surroundings {t : State} (leads : LeadsBeside n s t) (options : Options) (files : Files)
      (now : Int) : LeadsBeside n s { t with options, files, now }

variable {s t : State} {n : Nat} {p q : Payload}

theorem LeadsBeside.leads (beside : s.LeadsBeside n t) : s.Leads t := by
  induction beside with
  | refl => exact .refl
  | call _ thread exported _ ih => exact ih.step (.call thread exported)
  | surroundings _ options files now ih => exact ih.step (.surroundings options files now)

theorem Leads.trans {u : State} (first : s.Leads t) (second : t.Leads u) : s.Leads u := by
  induction second with
  | refl => exact first
  | step _ step ih => exact ih.step step

/-- One call leaves every object alone that it is not about. -/
theorem payloadAt_perform (reachable : s.Reachable) (thread : Nat) (call : Call)
    (other : s.subject? call ≠ some n) (before : s.heap.payloadAt n = some p)
    (after : (s.perform thread call).2.heap.payloadAt n = some q) : q = p := by
  have framed := (perform_alters reachable.sound reachable.forest thread call).framed
  rcases framed.payload n (Heap.lt_length_of_payloadAt before) other with same | gone
  · exact Option.some.inj (after.symm.trans (same.trans before))
  · cases gone.symm.trans after

/-- What is still there after calls about other objects was there before, unless it is new. -/
theorem LeadsBeside.payloadAt_of_lt (beside : s.LeadsBeside n t) (reachable : s.Reachable)
    (small : n < s.heap.objects.length) (after : t.heap.payloadAt n = some q) :
    s.heap.payloadAt n = some q := by
  induction beside generalizing q with
  | refl => exact after
  | @call t leads thread call _ other ih =>
    -- Numbers are not used again, so what is there at the end was there before this call.
    have reached : t.Reachable := Leads.trans reachable leads.leads
    have framed := (perform_alters reached.sound reached.forest thread call).framed
    have small : n < t.heap.objects.length :=
      Nat.lt_of_lt_of_le small (leads.leads.advanced reachable.sound).later.length_le
    rcases framed.payload n small other with same | gone
    · exact ih (same.symm.trans after)
    · cases gone.symm.trans after
  | surroundings _ options files now ih => exact ih after

/-- What is still there after calls about other objects has not changed in between. -/
theorem LeadsBeside.payloadAt (beside : s.LeadsBeside n t) (reachable : s.Reachable)
    (before : s.heap.payloadAt n = some p) (after : t.heap.payloadAt n = some q) : q = p := by
  have same := beside.payloadAt_of_lt reachable (Heap.lt_length_of_payloadAt before) after
  exact Option.some.inj (same.symm.trans before)

/-- In every reachable state each object stands at most once on the lists of all projects and
managers together; a call leaves alone every object but the one behind its first handle; and so do
any number of calls that are about other objects. -/
theorem calls_frame (reachable : s.Reachable) :
    (∀ n, s.heap.listed n ≤ 1) ∧
    (∀ (thread : Nat) (call : Call) (n : Nat) (p q : Payload), s.subject? call ≠ some n →
      s.heap.payloadAt n = some p → (s.perform thread call).2.heap.payloadAt n = some q → q = p) ∧
    ∀ (n : Nat) (t : State) (p q : Payload), s.LeadsBeside n t →
      s.heap.payloadAt n = some p → t.heap.payloadAt n = some q → q = p :=
  ⟨reachable.forest.once, fun thread call _ _ _ => payloadAt_perform reachable thread call,
    fun _ _ _ _ beside => beside.payloadAt reachable⟩

/-- An array of the tasks of a project keeps its content when the project loses its task. -/
theorem listing_outlives_deletion :
    let project : Handle := ⟨0x100000001⟩
    let title : Handle := ⟨0x100000002⟩
    let task : Handle := ⟨0x100000003⟩
    let id : Handle := ⟨0x100000005⟩
    let createTask : Binding :=
      ⟨"IProject_CreateTask", .project, "CreateTask", .call [.handle, .handle] (some .handle)⟩
    let getTasks : Binding := ⟨"IProject_GetTasks", .project, "GetTasks", .call [] (some .handle)⟩
    let deleteTask : Binding :=
      ⟨"IProject_DeleteTask", .project, "DeleteTask", .call [.handle] (some .bool)⟩
    let s := performAll {} [(0, .createAs .project), (0, .createText (.text "title")),
      (0, .member createTask project [.handle title, .handle title]),
      (0, .member getTasks project []),
      (0, .member ⟨"ITask_Getid", .task, "id", .get .handle⟩ task [])]
    let t := (s.perform 1 (.member deleteTask project [.handle id])).2
    s.heap.listed 2 = 1 ∧ t.heap.listed 2 = 0 ∧
      ∃ p, s.heap.payloadAt 3 = some p ∧ t.heap.payloadAt 3 = some p ∧
        p.refs = [⟨2, .interface TaskModel.ids.task⟩] := by
  intro project title task id createTask getTasks deleteTask s t
  have reachable : s.Reachable := by
    refine Leads.refl.performAll fun call hcall => ?_
    simp only [List.mem_cons, List.not_mem_nil, or_false] at hcall
    rcases hcall with rfl | rfl | rfl | rfl | rfl
    · exact .of_symbol "IProject_Create" [] rfl
    · exact .of_symbol "idlbridge_string_create" [.text _] rfl
    · exact .of_symbol "IProject_CreateTask" [.handle _, .handle _, .handle _] rfl
    · exact .of_symbol "IProject_GetTasks" [.handle _] rfl
    · exact .of_symbol "ITask_Getid" [.handle _] rfl
  have facts : s.heap.listed 2 = 1 ∧ t.heap.listed 2 = 0 ∧
      s.subject? (.member deleteTask project [.handle id]) ≠ some 3 ∧
      (t.heap.payloadAt 3).isSome ∧
      (s.heap.payloadAt 3).map Payload.refs = some [⟨2, .interface TaskModel.ids.task⟩] := by
    decide +kernel
  obtain ⟨listed, unlisted, other, alive, refs⟩ := facts
  obtain ⟨p, before, refs⟩ := Option.map_eq_some_iff.mp refs
  obtain ⟨q, after⟩ := Option.isSome_iff_exists.mp alive
  have same : q = p := (calls_frame reachable).2.1 1 _ 3 p q other before after
  exact ⟨listed, unlisted, p, before, same ▸ after, refs⟩

end ObjectBoundary.State
