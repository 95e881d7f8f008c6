import ObjectBoundary.Proofs.Reachable

/-!
# Failed calls

Once the task model is registered, a call that ends with an error leaves everything as it was that
another call could see. What was made on the way is destroyed again, and what was taken is given
back. The one exception is a method that makes an object for which there is no handle left: the
object is in its list then.
-/

namespace ObjectBoundary.State

/-- A call of a thread has left everything as it was, apart from counters and the last error of the
thread. -/
structure Untouched (s : State) (thread : Nat) (t : State) : Prop where
  /-- The same handles are live, and each is bound to the same object. -/
  bound_eq : ∀ h, t.handles.bound? h = s.handles.bound? h
  live_eq : t.handles.live = s.handles.live
  /-- Every object has its count and its payload. -/
  object_eq : ∀ n < s.heap.objects.length, t.heap.objects[n]? = s.heap.objects[n]?
  /-- There is nothing left of an object that the call has made. -/
  made_destroyed : ∀ (n : Nat) (object : Object), s.heap.objects.length ≤ n →
    t.heap.objects[n]? = some object → object.count = 0 ∧ object.payload = none
  registry_eq : t.registry = s.registry
  factories_eq : t.factories = s.factories
  taskIds_eq : t.taskIds = s.taskIds
  options_eq : t.options = s.options
  files_eq : t.files = s.files
  now_eq : t.now = s.now
  log_eq : t.log = s.log
  lastErrors_eq : ∀ other ≠ thread, t.lastErrors other = s.lastErrors other

variable {s t : State} {e : Failure} {thread : Nat} {call : Call}

theorem Untouched.refl (s : State) (thread : Nat) : s.Untouched thread s := by
  refine ⟨fun _ => rfl, rfl, fun _ _ => rfl, ?_, rfl, rfl, rfl, rfl, rfl, rfl, rfl, fun _ _ => rfl⟩
  intro n object hn found
  rw [List.getElem?_eq_none hn] at found
  cases found

/-- The recorded error of one thread is none of the others' business. -/
theorem lastErrors_setLastError {other : Nat} (hne : other ≠ thread) (s : State) (e : LastError) :
    (s.setLastError thread e).lastErrors other = s.lastErrors other := if_neg hne

theorem lastErrors_setLastError_self (s : State) (thread : Nat) (e : LastError) :
    (s.setLastError thread e).lastErrors thread = e := if_pos rfl

/-- A request that is refused leaves no trace, once its failure is recorded. -/
theorem Refused.untouched (sound : s.Sound) (refused : s.countCall.Refused e t) :
    s.Untouched thread (t.recordFailure thread e) := by
  obtain ⟨live_eq, share_eq⟩ := sound.table.counts_of_bound_eq refused.sound.table refused.bound
  have payload_eq := sound.heap.payload_eq refused.sound.heap refused.kept share_eq
  have count_eq := sound.heap.count_eq refused.sound.heap refused.kept share_eq
  refine ⟨refused.bound, live_eq, ?_, ?_, refused.setting.registry_eq,
    refused.setting.factories_eq, refused.setting.taskIds_eq, refused.setting.options_eq,
    refused.setting.files_eq, refused.setting.now_eq, refused.setting.log_eq, ?_⟩
  · intro n hn
    exact Heap.getElem?_of_views hn (refused.kept.tag_eq n hn) (payload_eq n) (count_eq n)
  · intro n object hn found
    have before : s.heap.objects[n]? = none := List.getElem?_eq_none hn
    have found : t.heap.objects[n]? = some object := found
    have count := count_eq n
    have payload := payload_eq n
    simp only [Heap.countAt, Heap.payloadAt, before, found] at count payload
    exact ⟨count, payload⟩
  · intro other hne
    exact (lastErrors_setLastError hne _ _).trans (congrFun refused.setting.lastErrors_eq other)

theorem Sound.registered_of_taskIds (sound : s.Sound) (h : s.taskIds.isSome) :
    s.Registered := by
  rcases sound.model with registered | ⟨unregistered, _⟩
  · exact registered
  · rw [unregistered.taskIds_eq] at h
    cases h

/-- A guarded request that fails leaves everything as it was. -/
theorem untouched_guarded (sound : s.Sound) (registered : s.Registered)
    (exported : call.Exported) (sentinel : Answer)
    (failed : ((s.guarded thread sentinel call.body).2.lastErrors thread).code ≠ .none)
    (unexcused : ¬ (call.isMaker ∧
      ((s.guarded thread sentinel call.body).2.lastErrors thread).code = .handleLimit)) :
    s.Untouched thread (s.guarded thread sentinel call.body).2 := by
  have meets := Call.body_meets sound.countCall call exported
  rcases guarded_cases s thread sentinel call.body with ⟨a, t, hr, hg⟩ | ⟨e, t, hr, hg⟩
  · rw [hg] at failed
    exact absurd (congrArg LastError.code (lastErrors_setLastError_self t thread {})) failed
  · have fails := meets.bad_of_run hr
    rw [hg] at unexcused ⊢
    rcases fails.refused ⟨registered.taskIds_eq, registered.registry_eq,
      registered.factories_eq⟩ with refused | ⟨maker, n, rfl⟩
    · exact refused.untouched sound
    · refine absurd ⟨maker, ?_⟩ unexcused
      exact congrArg LastError.code (lastErrors_setLastError_self _ thread _)

theorem failed_call_untouched (reachable : s.Reachable) (registered : s.taskIds.isSome)
    (exported : call.Exported)
    (failed : ((s.perform thread call).2.lastErrors thread).code ≠ .none)
    (unexcused : ¬ (call.isMaker ∧
      ((s.perform thread call).2.lastErrors thread).code = .handleLimit)) :
    s.Untouched thread (s.perform thread call).2 := by
  have sound := reachable.sound
  have registered := sound.registered_of_taskIds registered
  rcases perform_cases s thread call with heq | heq | heq
  · rw [heq]
    exact .refl s thread
  · rw [heq] at failed
    exact absurd (congrArg LastError.code (lastErrors_setLastError_self s thread {})) failed
  · rw [heq] at failed unexcused ⊢
    exact untouched_guarded sound registered exported _ failed unexcused

/-- A project for which there is no handle left is made and destroyed again. -/
theorem unlent_project_untouched :
    let s : State :=
      { performAll {} [(0, .createAs .task)] with options := { maxLiveHandles := 1 } }
    let t := (s.perform 1 (.createAs .project)).2
    (t.lastErrors 1).code = .handleLimit ∧ t.heap.created = 2 ∧ s.Untouched 1 t := by
  intro s t
  have facts : (t.lastErrors 1).code = .handleLimit ∧ t.heap.created = 2 ∧ s.taskIds.isSome := by
    decide +kernel
  obtain ⟨limit, created, registered⟩ := facts
  refine ⟨limit, created, failed_call_untouched ?_ registered ?_ ?_ ?_⟩
  · refine (Leads.refl.performAll fun call hcall => ?_).step (.surroundings _ _ _)
    rw [List.mem_singleton.mp hcall]
    exact .of_symbol "ITask_Create" [] rfl
  · exact .of_symbol "IProject_Create" [] rfl
  · rw [limit]
    decide
  · rintro ⟨maker, _⟩
    cases maker

end ObjectBoundary.State
