import ObjectBoundary.Proofs.Callable
import ObjectBoundary.Proofs.Cursors
import ObjectBoundary.Proofs.Tags
import ObjectBoundary.Proofs.Tasks.Lists

/-!
# The views of a project by status

Five entry points look at the tasks of a project: they count them, those that are completed and
those of each status, and they list them, all or those of one status. Each answers from the list of
tasks alone and leaves it as it is, so that whatever is asked in whatever order the answers agree.
-/

namespace ObjectBoundary

open Op State

namespace Binding

def getTaskCount : Binding :=
  ⟨"IProject_GetTaskCount", .project, "GetTaskCount", .call [] (some .i32)⟩

def getCompletedCount : Binding :=
  ⟨"IProject_GetCompletedCount", .project, "GetCompletedCount", .call [] (some .i32)⟩

def getTasks : Binding := ⟨"IProject_GetTasks", .project, "GetTasks", .call [] (some .handle)⟩

def getTasksByStatus : Binding :=
  ⟨"IProject_GetTasksByStatus", .project, "GetTasksByStatus", .call [.i32] (some .handle)⟩

def getTaskCountByStatus : Binding :=
  ⟨"IProject_GetTaskCountByStatus", .project, "GetTaskCountByStatus", .call [] (some .handle)⟩

end Binding

/-! ### Tasks with a status -/

def withStatus (tasks : List (Ref × Task)) (status : Status) : List (Ref × Task) :=
  tasks.filter (·.2.status == status)

/-- How many of some tasks have a status, as a number of 32 bits. -/
def countOf (tasks : List (Ref × Task)) (status : Status) : Int32 :=
  Int32.ofNat (withStatus tasks status).length

variable {tasks : List (Ref × Task)} {status : Status}

/-- Each task has one of the statuses. -/
theorem sum_length_withStatus (tasks : List (Ref × Task)) :
    (Status.all.map fun status => (withStatus tasks status).length).sum = tasks.length := by
  induction tasks with
  | nil => rfl
  | cons task tasks ih =>
    obtain ⟨ref, task⟩ := task
    simp only [Status.all, List.map_cons, List.map_nil, List.sum_cons, List.sum_nil] at ih ⊢
    cases has : task.status <;> simp [withStatus, has] at ih ⊢ <;> omega

theorem length_withStatus_le (tasks : List (Ref × Task)) (status : Status) :
    (withStatus tasks status).length ≤ tasks.length := List.length_filter_le _ _

theorem countWith_eq_length (heap : Heap) (p : Project Ref) (status : Status) :
    heap.countWith p status = (withStatus (heap.tasksOf p) status).length :=
  List.countP_eq_length_filter

theorem Project.countValue_of_lt {n : Nat} (small : n < 2 ^ 31) :
    countValue n = .i32 (Int32.ofNat n) := by
  rw [countValue, Nat.min_eq_left (by omega)]

theorem Status.ofValue_toValue (status : Status) : ofValue status.toValue = .ok status := by
  cases status <;> rfl

theorem Status.toInt64_toInt32_number (status : Status) :
    status.number.toInt32.toInt64 = status.number := by
  cases status <;> rfl

theorem Status.contains_number (status : Status) :
    TaskModel.statusDescriptor.contains status.number = true := by
  cases status <;> decide

/-! ### Copies of lists and counts -/

namespace Collection

def sealedObjects (id : InterfaceId) (refs : List Ref) : Collection :=
  { kind := .array
    elemTy := some (.interface id)
    isSealed := true
    entries := refs.map fun ref => .item (.object ref) }

theorem snapshot_objectArray {α : Type} (id : InterfaceId) (items : List (Ref × α)) :
    snapshot (Project.objectArray items) (.array (.interface id)) =
      .ok (sealedObjects id (items.map (·.1))) := by
  simp only [snapshot, declared?, Project.objectArray, entriesOf?, if_true, sealedObjects,
    List.map_map]
  rfl

theorem refs_sealedObjects (id : InterfaceId) (refs : List Ref) :
    (sealedObjects id refs).refs = refs := by
  induction refs with
  | nil => rfl
  | cons ref refs ih => exact congrArg (ref :: ·) ih

/-- A sealed dictionary with a number for each status. -/
def sealedCounts (count : Status → Int32) : Collection :=
  { kind := .dict
    keyTy := some (.enumeration TaskModel.ids.status)
    elemTy := some .i32
    isSealed := true
    entries := Status.all.map fun status => ⟨some status.toValue, .i32 (count status)⟩ }

/-- No two statuses have the same number, so each keeps its own entry. -/
theorem snapshot_counts (count : Status → Int32) :
    snapshot (.dict (Status.all.map fun status => (status.toValue, .i32 (count status))))
      (.dict (.enumeration TaskModel.ids.status) .i32) = .ok (sealedCounts count) := by
  have keys : (Status.all.map fun status => (status.toValue, Value.i32 (count status))).map (·.1) =
      Status.all.map Status.toValue := by
    rw [List.map_map]
    rfl
  have apart : (Status.all.map Status.toValue).Pairwise fun a b => a.same b = false := by decide
  have stored := copyPairs_nil (by rw [keys]; exact apart)
  simp only [snapshot, declared?, entriesOf?, if_true, stored, sealedCounts, List.map_map]
  rfl

end Collection

namespace State

variable {s t : State} {h a : Handle} {ref r : Ref} {p : Project Ref}

/-! ### Statuses at the boundary -/

theorem Registered.checkEnumerator_status (registered : s.Registered) (status : Status) :
    s.registry.checkEnumerator TaskModel.ids.status status.number = .ok status.number :=
  Registry.checkEnumerator_eq_ok_iff.mpr
    ⟨rfl, _, by rw [registered.registry_eq]; rfl, status.contains_number⟩

theorem Registered.kindOf_status (registered : s.Registered) :
    s.registry.kindOf (.enumeration TaskModel.ids.status) = .i32 := by
  rw [registered.registry_eq]
  rfl

/-- The number of a status comes in as that status. -/
theorem Registered.run_inbound_status (registered : s.Registered) (status : Status) :
    s.run (inboundArguments [.i32 status.number.toInt32]
        [⟨"status", .enumeration TaskModel.ids.status⟩]) = (.ok [status.toValue], s) := by
  have came := run_inbound_enumerator (s := s) (w := .i32 status.number.toInt32) rfl
    registered.kindOf_status (n := status.number)
    (by rw [if_pos rfl, Wire.i32Bits_i32, status.toInt64_toInt32_number])
  rw [registered.checkEnumerator_status] at came
  simp only [inboundArguments, run_bind, came, run_pure]
  rfl

/-- A status goes out as its number. -/
theorem Registered.run_outbound_status (registered : s.Registered) (status : Status) :
    s.run (outbound status.toValue (.enumeration TaskModel.ids.status)) =
      (.ok (.i32 status.number.toInt32), s) := by
  have checked : s.run (check (s.registry.checkEnumerator TaskModel.ids.status status.number)) =
      (.ok status.number, s) := by
    rw [run_check, registered.checkEnumerator_status]
    rfl
  simp only [Status.toValue, outbound, enumeratorOut, run_bind, run_get, checked,
    registered.kindOf_status]
  rfl

/-! ### What the methods give -/

/-- A live project and the tasks on its list. -/
structure Shown (s : State) (h : Handle) (ref : Ref) (p : Project Ref) (tasks : List (Ref × Task)) :
    Prop where
  reachable : s.Reachable
  bound : s.handles.bound? h = some ref
  held : s.heap.payloadAt ref.number = some (.project p)
  tasks_eq : s.heap.tasksOf p = tasks
  few : tasks.length < 2 ^ 31

namespace Shown

variable {tasks : List (Ref × Task)} {status : Status} {b : Binding} {m : Method}

theorem map_fst (shown : s.Shown h ref p tasks) : tasks.map (·.1) = p.tasks :=
  shown.tasks_eq ▸ shown.reachable.sound.map_tasksOf shown.held

theorem length_eq (shown : s.Shown h ref p tasks) : p.tasks.length = tasks.length := by
  rw [← shown.map_fst, List.length_map]

theorem callable (shown : s.Shown h ref p tasks) (role : b.role = .project)
    (declared : TaskModel.projectDescriptor.method? b.member = some m) :
    s.countCall.Callable b h ref m :=
  .ofProject shown.reachable.sound.countCall shown.bound shown.held role declared

theorem registered (shown : s.Shown h ref p tasks) : s.Registered :=
  (shown.callable (b := .getTasks) rfl rfl).registered.of_eq rfl rfl rfl

theorem run_callMethod (shown : s.Shown h ref p tasks) (name : String) (arguments : List Value) :
    s.countCall.run (callMethod ref name arguments) =
      s.countCall.run (p.invoke ref name arguments) := by
  simp only [callMethod, run_bind, run_payload (s := s.countCall) shown.held]

theorem countValue_withStatus (shown : s.Shown h ref p tasks) (status : Status) :
    Project.countValue (s.heap.countWith p status) = .i32 (countOf tasks status) := by
  have le := length_withStatus_le tasks status
  have few := shown.few
  rw [countWith_eq_length, shown.tasks_eq, Project.countValue_of_lt (by omega), countOf]

/-- The objects of some of the tasks. -/
theorem carries (shown : s.Shown h ref p tasks) {some : List (Ref × Task)}
    (part : ∀ task ∈ some, task ∈ tasks) : s.heap.Carries (some.map (·.1)) := by
  intro r member
  obtain ⟨⟨r, task⟩, listed, rfl⟩ := List.mem_map.mp member
  have listed := shown.tasks_eq.symm ▸ part _ listed
  have sound := shown.reachable.sound
  obtain ⟨holds, tag_eq⟩ := sound.task_held (sound.has shown.bound) shown.held
    (Heap.mem_of_mem_tasksOf listed)
  exact ⟨holds, by rw [tag_eq]; rfl⟩

theorem handsOut_tasks (shown : s.Shown h ref p tasks) :
    HandsOut (Call.member .getTasks h []).body s.countCall (fun g => ⟨.handle g, []⟩)
      (.collection (.sealedObjects TaskModel.ids.task (tasks.map (·.1)))) := by
  have called : s.countCall.run (callMethod ref "GetTasks" []) =
      (.ok (Project.objectArray tasks), s.countCall) := by
    rw [shown.run_callMethod, ← shown.tasks_eq]
    rfl
  refine (shown.callable rfl rfl).gives rfl rfl rfl called rfl
    (Collection.snapshot_objectArray _ _) ?_
  rw [Collection.refs_sealedObjects]
  exact shown.carries fun _ member => member

theorem handsOut_withStatus (shown : s.Shown h ref p tasks) (status : Status) :
    HandsOut (Call.member .getTasksByStatus h [.i32 status.number.toInt32]).body s.countCall
      (fun g => ⟨.handle g, []⟩)
      (.collection (.sealedObjects TaskModel.ids.task ((withStatus tasks status).map (·.1)))) := by
  have called : s.countCall.run (callMethod ref "GetTasksByStatus" [status.toValue]) =
      (.ok (Project.objectArray (withStatus tasks status)), s.countCall) := by
    have read : s.countCall.run
        (consent do Status.ofValue (← Value.argument [status.toValue] 0)) =
          (.ok status, s.countCall) := by
      have argument : Value.argument [status.toValue] 0 = .ok status.toValue := rfl
      rw [argument]
      exact congrArg (fun made => s.countCall.run (consent made)) status.ofValue_toValue
    rw [shown.run_callMethod, ← shown.tasks_eq]
    simp only [Project.invoke, run_bind, run_get, read, run_pure]
    rfl
  have callable := shown.callable (b := .getTasksByStatus) rfl rfl
  refine callable.gives rfl rfl (callable.registered.run_inbound_status status) called rfl
    (Collection.snapshot_objectArray _ _) ?_
  rw [Collection.refs_sealedObjects]
  exact shown.carries fun _ member => (List.mem_filter.mp member).1

theorem handsOut_counts (shown : s.Shown h ref p tasks) :
    HandsOut (Call.member .getTaskCountByStatus h []).body s.countCall (fun g => ⟨.handle g, []⟩)
      (.collection (.sealedCounts (countOf tasks))) := by
  have called : s.countCall.run (callMethod ref "GetTaskCountByStatus" []) =
      (.ok (.dict (Status.all.map fun status =>
        (status.toValue, .i32 (countOf tasks status)))), s.countCall) := by
    rw [shown.run_callMethod]
    simp only [← shown.countValue_withStatus]
    rfl
  exact (shown.callable rfl rfl).gives rfl rfl rfl called rfl (Collection.snapshot_counts _)
    (Heap.carries_nil _)

theorem run_total (shown : s.Shown h ref p tasks) :
    s.countCall.run (Call.member .getTaskCount h []).body =
      (.ok ⟨.i32 (Int32.ofNat tasks.length), []⟩, s.countCall) := by
  refine (shown.callable rfl rfl).run_number rfl rfl rfl ?_
  rw [← shown.length_eq, shown.run_callMethod,
    ← Project.countValue_of_lt (shown.length_eq ▸ shown.few)]
  rfl

theorem run_completed (shown : s.Shown h ref p tasks) :
    s.countCall.run (Call.member .getCompletedCount h []).body =
      (.ok ⟨.i32 (countOf tasks .completed), []⟩, s.countCall) := by
  refine (shown.callable rfl rfl).run_number rfl rfl rfl ?_
  rw [shown.run_callMethod, ← shown.countValue_withStatus]
  rfl

/-! ### What the calls leave -/

/-- Tasks stay listed and as they are when no object changes that was there. -/
theorem of_same (shown : s.Shown h ref p tasks) (reachable : t.Reachable)
    (bound : ∀ g r, s.handles.bound? g = some r → t.handles.bound? g = some r)
    (same : ∀ n < s.heap.objects.length, t.heap.payloadAt n = s.heap.payloadAt n) :
    t.Shown h ref p tasks where
  reachable := reachable
  bound := bound h ref shown.bound
  held := (same _ (Heap.lt_length_of_payloadAt shown.held)).trans shown.held
  tasks_eq := by
    rw [← shown.tasks_eq, Heap.tasksOf, Heap.tasksOf]
    refine List.filterMap_congr fun r member => ?_
    have small := shown.reachable.forest.lt_length shown.held member
    simp only [Heap.task?, Heap.payload?_eq_payloadAt, same _ small]
  few := shown.few

end Shown

/-- A call whose request only reads. -/
theorem perform_reads {thread : Nat} {call : Call} {answer : Answer}
    (passes : s.perform thread call = s.guarded thread ⟨call.sentinel, []⟩ call.body)
    (run : s.countCall.run call.body = (.ok answer, s.countCall)) :
    s.perform thread call = (answer, s.countCall.setLastError thread {}) := by
  rw [passes, guarded, run]

/-- A call that gives a collection changes nothing that was there. When there is a handle for it,
the collection is behind the handle that is given. -/
theorem perform_behind (thread : Nat) {call : Call} {c : Collection} (reachable : s.Reachable)
    (exported : call.Exported)
    (passes : s.perform thread call = s.guarded thread ⟨call.sentinel, []⟩ call.body)
    (given : HandsOut call.body s.countCall (fun g => ⟨.handle g, []⟩) (.collection c)) :
    let done := s.perform thread call
    (∀ g r, s.handles.bound? g = some r → done.2.handles.bound? g = some r) ∧
    (∀ n < s.heap.objects.length, done.2.heap.payloadAt n = s.heap.payloadAt n) ∧
    ((done.2.lastErrors thread).code = .none ↔ s.Grants 1) ∧
    ((done.2.lastErrors thread).code = .none → ∃ a r, done.1 = ⟨.handle a, []⟩ ∧
      done.2.Behind a r c) := by
  intro done
  have reached : done.2.Reachable := reachable.step (.call thread exported)
  rcases guarded_cases s thread ⟨call.sentinel, []⟩ call.body with ⟨x, t, hr, hg⟩ | ⟨e, t, hr, hg⟩
  · obtain ⟨granted, a, rfl, lent, r, bound, _, payload⟩ := Meets.ok_of_run given hr
    have done_eq : done = _ := passes.trans hg
    have typed := reached.wellTyped
    rw [done_eq] at reached typed ⊢
    refine ⟨fun g r hg => lent.bound_of hg, fun n small => lent.grown.payload n small,
      iff_of_true (code_setLastError_clear t thread) granted, fun _ => ⟨a, r, rfl, ?_⟩⟩
    exact ⟨reached.sound, typed, bound, payload⟩
  · obtain ⟨denied, refused⟩ := Meets.bad_of_run given hr
    have done_eq : done = _ := passes.trans hg
    have untouched : s.Untouched thread (t.recordFailure thread e) :=
      refused.untouched reachable.sound
    have failed := code_recordFailure_ne_none t thread e
    rw [done_eq]
    refine ⟨fun g r hg => (untouched.bound_eq g).trans hg,
      fun n small => untouched.payloadAt_eq small, iff_of_false failed denied,
      fun cleared => absurd cleared failed⟩

/-- The calls that look at the tasks of a project. -/
inductive Views (h : Handle) : Call → Prop where
  | total : Views h (.member .getTaskCount h [])
  | completed : Views h (.member .getCompletedCount h [])
  | all : Views h (.member .getTasks h [])
  | withStatus (status : Status) :
      Views h (.member .getTasksByStatus h [.i32 status.number.toInt32])
  | counts : Views h (.member .getTaskCountByStatus h [])

theorem Views.exported {call : Call} (views : Views h call) : call.Exported := by
  cases views <;> exact Call.exported_member (by decide) _ _

/-- Looking at the tasks of a project leaves them as they are. -/
theorem Shown.perform {tasks : List (Ref × Task)} {call : Call} (shown : s.Shown h ref p tasks)
    (views : Views h call) (thread : Nat) : (s.perform thread call).2.Shown h ref p tasks := by
  have reached : (s.perform thread call).2.Reachable :=
    shown.reachable.step (.call thread views.exported)
  have numbered {answer : Answer} (run : s.countCall.run call.body = (.ok answer, s.countCall))
      (passes : s.perform thread call = s.guarded thread ⟨call.sentinel, []⟩ call.body) :
      (s.perform thread call).2.Shown h ref p tasks := by
    rw [perform_reads passes run] at reached ⊢
    exact shown.of_same reached (fun _ _ hg => hg) fun _ _ => rfl
  have collected {c : Collection}
      (given : HandsOut call.body s.countCall (fun g => ⟨.handle g, []⟩) (.collection c))
      (passes : s.perform thread call = s.guarded thread ⟨call.sentinel, []⟩ call.body) :
      (s.perform thread call).2.Shown h ref p tasks := by
    obtain ⟨bound, same, _⟩ := perform_behind _ shown.reachable views.exported passes given
    exact shown.of_same reached bound same
  cases views with
  | total => exact numbered shown.run_total rfl
  | completed => exact numbered shown.run_completed rfl
  | all => exact collected shown.handsOut_tasks rfl
  | withStatus status => exact collected (shown.handsOut_withStatus status) rfl
  | counts => exact collected shown.handsOut_counts rfl

theorem Shown.performAll {tasks : List (Ref × Task)} {calls : List (Nat × Call)}
    (shown : s.Shown h ref p tasks) (views : ∀ call ∈ calls, Views h call.2) :
    (s.performAll calls).Shown h ref p tasks := by
  induction calls generalizing s with
  | nil => exact shown
  | cons call calls ih =>
    exact ih (shown.perform (views call List.mem_cons_self) call.1) fun other member =>
      views other (List.mem_cons_of_mem _ member)

/-! ### Enumerating the counts -/

/-- The answers of calls for the next entry of a dictionary, one thread after another. -/
def nextAnswers (s : State) (a : Handle) : List Nat → List Answer
  | [] => []
  | thread :: threads =>
    let done := s.perform thread (.nextEntry a true true)
    done.1 :: done.2.nextAnswers a threads

/-- The answer to the call for the next entry after so many of them: the count of one status after
the other, and then the end. -/
def countAnswer (count : Status → Int32) (told : Nat) : Answer :=
  match Status.all[told]? with
  | some status => ⟨.bool true, [.i32 status.number.toInt32, .i32 (count status)]⟩
  | none => ⟨.bool false, []⟩

section

variable {c : Collection} {count : Status → Int32} {status : Status}

theorem run_nextEntry_count (behind : s.Behind a r c) (registered : s.Registered)
    (kind_eq : c.kind = .dict) (keyTy_eq : c.keyTy = some (.enumeration TaskModel.ids.status))
    (elemTy_eq : c.elemTy = some .i32) {n : Int32}
    (current : c.current? = some ⟨some status.toValue, .i32 n⟩) :
    s.run (nextEntry a) = (.ok (some (.i32 status.number.toInt32, .i32 n)),
      s.withPayload r (.collection c.advance)) := by
  have found := run_collection behind.sound behind.bound behind.payload kind_eq
  have value : s.run (outbound (.i32 n) .i32) = (.ok (.i32 n), s) := rfl
  simp only [nextEntry, run_bind, found, current, keyTy_eq, elemTy_eq, outboundAs,
    Option.getD_some, registered.run_outbound_status, run_tryCatch, value, run_replace, run_pure]

/-- The counts with the cursor behind so many of them, or behind the last. -/
def countsFrom (count : Status → Int32) (told : Nat) : Collection :=
  { Collection.sealedCounts count with cursor := min told Status.all.length }

theorem current?_countsFrom (count : Status → Int32) (told : Nat) :
    (countsFrom count told).current? =
      Status.all[told]?.map fun status => ⟨some status.toValue, .i32 (count status)⟩ := by
  have entry : (countsFrom count told).current? = Status.all[min told Status.all.length]?.map
      fun status => ⟨some status.toValue, .i32 (count status)⟩ := List.getElem?_map
  rw [entry]
  rcases Nat.le_total told Status.all.length with inside | beyond
  · rw [Nat.min_eq_left inside]
  · rw [Nat.min_eq_right beyond, List.getElem?_eq_none (Nat.le_refl _),
      List.getElem?_eq_none beyond]

theorem advance_countsFrom {told : Nat} (inside : told < Status.all.length) :
    (countsFrom count told).advance = countsFrom count (told + 1) := by
  simp only [countsFrom, Collection.advance, Nat.min_eq_left (Nat.le_of_lt inside),
    Nat.min_eq_left (Nat.succ_le_of_lt inside)]

theorem countsFrom_succ {told : Nat} (beyond : Status.all.length ≤ told) :
    countsFrom count (told + 1) = countsFrom count told := by
  simp only [countsFrom, Nat.min_eq_right beyond, Nat.min_eq_right (Nat.le_succ_of_le beyond)]

/-- While there is a count under the cursor, a call tells it and moves the cursor behind it. -/
theorem perform_nextEntry_told (behind : s.Behind a r c) (registered : s.Registered)
    (kind_eq : c.kind = .dict) (keyTy_eq : c.keyTy = some (.enumeration TaskModel.ids.status))
    (elemTy_eq : c.elemTy = some .i32) {n : Int32}
    (current : c.current? = some ⟨some status.toValue, .i32 n⟩) (thread : Nat) :
    let done := s.perform thread (.nextEntry a true true)
    done.1 = ⟨.bool true, [.i32 status.number.toInt32, .i32 n]⟩ ∧ done.2.Registered ∧
      done.2.Behind a r c.advance := by
  have next := run_nextEntry_count behind.countCall (registered.of_eq rfl rfl rfl) kind_eq keyTy_eq
    elemTy_eq current
  have run : s.countCall.run (Call.nextEntry a true true).body =
      (.ok ⟨.bool true, [.i32 status.number.toInt32, .i32 n]⟩,
        s.countCall.withPayload r (.collection c.advance)) := by
    simp only [Call.body, Call.requireOutput, Bool.and_self, if_true, run_bind, run_pure, next]
  have done_eq : s.perform thread (.nextEntry a true true) =
      (⟨.bool true, [.i32 status.number.toInt32, .i32 n]⟩,
        s.afterReplace thread r (.collection c.advance)) := by
    change s.guarded thread _ _ = _
    rw [guarded, run]
    rfl
  have fits := behind.sound.heap.fits_of_holds (behind.sound.has behind.bound) behind.payload
  have refs : ∀ ref ∈ c.advance.refs, s.heap.Holds ref := fun _ member =>
    behind.sound.heap.holds_owned behind.payload member
  obtain ⟨_, payload⟩ := behind.sound.afterReplace (p := .collection c.advance) behind.bound fits
    refs thread
  have behind' : (s.perform thread (.nextEntry a true true)).2.Behind a r c.advance :=
    behind.perform (CollectionKind.dict.exported_next a) (by rw [done_eq]; exact behind.bound)
      (by rw [done_eq]; exact payload)
  rw [done_eq] at behind' ⊢
  exact ⟨rfl, registered.of_eq rfl rfl rfl, behind'⟩

/-- At the end a call tells it and leaves the dictionary as it is. -/
theorem perform_nextEntry_ended (behind : s.Behind a r c) (registered : s.Registered)
    (kind_eq : c.kind = .dict) (ended : c.current? = none) (thread : Nat) :
    let done := s.perform thread (.nextEntry a true true)
    done.1 = ⟨.bool false, []⟩ ∧ done.2.Registered ∧ done.2.Behind a r c := by
  have found := run_collection behind.countCall.sound behind.bound behind.payload kind_eq
  have run : s.countCall.run (Call.nextEntry a true true).body =
      (.ok ⟨.bool false, []⟩, s.countCall) := by
    simp only [Call.body, Call.requireOutput, Bool.and_self, if_true, run_bind, run_pure, nextEntry,
      found, ended]
  have done_eq : s.perform thread (.nextEntry a true true) = _ := perform_reads rfl run
  have behind' : (s.perform thread (.nextEntry a true true)).2.Behind a r c :=
    behind.perform (CollectionKind.dict.exported_next a) (by rw [done_eq]; exact behind.bound)
      (by rw [done_eq]; exact behind.payload)
  rw [done_eq] at behind' ⊢
  exact ⟨rfl, registered.of_eq rfl rfl rfl, behind'⟩

/-- A call tells the count under the cursor and moves the cursor behind it, or it tells the end. -/
theorem perform_nextEntry_count {told : Nat} (behind : s.Behind a r (countsFrom count told))
    (registered : s.Registered) (thread : Nat) :
    let done := s.perform thread (.nextEntry a true true)
    done.1 = countAnswer count told ∧ done.2.Registered ∧
      done.2.Behind a r (countsFrom count (told + 1)) := by
  have current := current?_countsFrom count told
  unfold countAnswer
  cases status_eq : Status.all[told]? with
  | some status =>
    have inside : told < Status.all.length := (List.getElem?_eq_some_iff.mp status_eq).1
    rw [status_eq] at current
    rw [← advance_countsFrom inside]
    exact perform_nextEntry_told behind registered rfl rfl rfl current thread
  | none =>
    have beyond : Status.all.length ≤ told := List.getElem?_eq_none_iff.mp status_eq
    rw [status_eq] at current
    rw [countsFrom_succ beyond]
    exact perform_nextEntry_ended behind registered rfl current thread

/-- Call after call tells the counts that are left in order, and then the end. -/
theorem nextAnswers_counts (told : Nat) (behind : s.Behind a r (countsFrom count told))
    (registered : s.Registered) (threads : List Nat) :
    s.nextAnswers a threads = (List.range' told threads.length).map (countAnswer count) := by
  induction threads generalizing s told with
  | nil => rfl
  | cons thread threads ih =>
    obtain ⟨answer, registered', behind'⟩ := perform_nextEntry_count behind registered thread
    rw [nextAnswers, answer, ih (told + 1) behind' registered', List.length_cons, List.range'_succ,
      List.map_cons]

end

/-! ### The views together -/

/-- A call gives an array of these tasks, if there is a handle for it. -/
structure GivesTasks (s : State) (thread : Nat) (call : Call) (refs : List Ref) : Prop where
  granted_iff : ((s.perform thread call).2.lastErrors thread).code = .none ↔ s.Grants 1
  content : ((s.perform thread call).2.lastErrors thread).code = .none → ∃ a r,
    (s.perform thread call).1 = ⟨.handle a, []⟩ ∧
    (s.perform thread call).2.handles.bound? a = some r ∧
    (s.perform thread call).2.heap.payloadAt r.number =
      some (.collection (.sealedObjects TaskModel.ids.task refs)) ∧
    ∀ other, ((s.perform thread call).2.perform other (.countItems .array a)).1 =
      ⟨.size refs.length, []⟩

/-- A call gives a dictionary of these counts, if there is a handle for it. It tells the statuses in
the order of their numbers, each once and with its count. -/
structure GivesCounts (s : State) (thread : Nat) (call : Call) (count : Status → Int32) :
    Prop where
  granted_iff : ((s.perform thread call).2.lastErrors thread).code = .none ↔ s.Grants 1
  content : ((s.perform thread call).2.lastErrors thread).code = .none → ∃ a r,
    (s.perform thread call).1 = ⟨.handle a, []⟩ ∧
    (s.perform thread call).2.handles.bound? a = some r ∧
    (s.perform thread call).2.heap.payloadAt r.number =
      some (.collection (.sealedCounts count)) ∧
    ∀ threads, (s.perform thread call).2.nextAnswers a threads =
      (List.range threads.length).map (countAnswer count)

/-- What the views of a project with these tasks answer. -/
structure AnswersFrom (s : State) (h : Handle) (tasks : List (Ref × Task)) (thread : Nat) :
    Prop where
  total : (s.perform thread (.member .getTaskCount h [])).1 =
    ⟨.i32 (Int32.ofNat tasks.length), []⟩
  completed : (s.perform thread (.member .getCompletedCount h [])).1 =
    ⟨.i32 (countOf tasks .completed), []⟩
  all : s.GivesTasks thread (.member .getTasks h []) (tasks.map (·.1))
  withStatus : ∀ status : Status,
    s.GivesTasks thread (.member .getTasksByStatus h [.i32 status.number.toInt32])
      ((withStatus tasks status).map (·.1))
  counts : s.GivesCounts thread (.member .getTaskCountByStatus h []) (countOf tasks)

namespace Shown

variable {tasks : List (Ref × Task)}

theorem givesTasks (shown : s.Shown h ref p tasks) {thread : Nat} {call : Call} {refs : List Ref}
    (views : Views h call)
    (passes : s.perform thread call = s.guarded thread ⟨call.sentinel, []⟩ call.body)
    (given : HandsOut call.body s.countCall (fun g => ⟨.handle g, []⟩)
      (.collection (.sealedObjects TaskModel.ids.task refs))) : s.GivesTasks thread call refs := by
  obtain ⟨_, _, granted_iff, content⟩ :=
    perform_behind _ shown.reachable views.exported passes given
  refine ⟨granted_iff, fun cleared => ?_⟩
  obtain ⟨a, r, answer, behind⟩ := content cleared
  refine ⟨a, r, answer, behind.bound, behind.payload, fun other => ?_⟩
  have counted := perform_countItems behind other
  rwa [Collection.count, Collection.sealedObjects, List.length_map] at counted

theorem givesCounts (shown : s.Shown h ref p tasks) (thread : Nat) :
    s.GivesCounts thread (.member .getTaskCountByStatus h []) (countOf tasks) := by
  obtain ⟨_, _, granted_iff, content⟩ :=
    perform_behind thread shown.reachable Views.counts.exported rfl
      shown.handsOut_counts
  refine ⟨granted_iff, fun cleared => ?_⟩
  obtain ⟨a, r, answer, behind⟩ := content cleared
  refine ⟨a, r, answer, behind.bound, behind.payload, fun threads => ?_⟩
  rw [List.range_eq_range']
  exact nextAnswers_counts 0 behind (shown.perform .counts thread).registered threads

theorem answersFrom (shown : s.Shown h ref p tasks) (thread : Nat) :
    s.AnswersFrom h tasks thread where
  total := congrArg Prod.fst (perform_reads rfl shown.run_total)
  completed := congrArg Prod.fst (perform_reads rfl shown.run_completed)
  all := shown.givesTasks .all rfl shown.handsOut_tasks
  withStatus status := shown.givesTasks (.withStatus status) rfl (shown.handsOut_withStatus status)
  counts := shown.givesCounts thread

/-- Each task has one status, so it stands in one of the lists by status and there once. -/
theorem exists_status (shown : s.Shown h ref p tasks) {task : Ref} (member : task ∈ p.tasks) :
    ∃ status, ((ObjectBoundary.withStatus tasks status).map (·.1)).count task = 1 ∧
      ∀ other, other ≠ status → task ∉ (ObjectBoundary.withStatus tasks other).map (·.1) := by
  rw [← shown.map_fst] at member
  obtain ⟨⟨task, content⟩, listed, rfl⟩ := List.mem_map.mp member
  refine ⟨content.status, ?_, fun other apart found => ?_⟩
  · have once : p.tasks.Nodup :=
      (shown.reachable.forest.chronological shown.held).imp fun lt same => by
        subst same
        exact Nat.lt_irrefl _ lt
    rw [← shown.map_fst] at once
    refine List.count_eq_one_of_mem (once.sublist (List.filter_sublist.map _)) ?_
    exact List.mem_map.mpr ⟨(task, content), List.mem_filter.mpr ⟨listed, by simp⟩, rfl⟩
  · obtain ⟨⟨_, content'⟩, filtered, rfl⟩ := List.mem_map.mp found
    obtain ⟨listed', has⟩ := List.mem_filter.mp filtered
    rw [← shown.tasks_eq] at listed listed'
    have same := (Heap.payloadAt_of_mem_tasksOf listed).symm.trans
      (Heap.payloadAt_of_mem_tasksOf listed')
    cases same
    exact apart (beq_iff_eq.mp has).symm

end Shown

theorem toInt_countOf {tasks : List (Ref × Task)} (few : tasks.length < 2 ^ 31) (status : Status) :
    (countOf tasks status).toInt = (withStatus tasks status).length :=
  Int32.toInt_ofNat_of_lt (Nat.lt_of_le_of_lt (length_withStatus_le tasks status) few)

theorem sum_countOf {tasks : List (Ref × Task)} (few : tasks.length < 2 ^ 31) :
    (Status.all.map fun status => (countOf tasks status).toInt).sum = tasks.length := by
  have total := sum_length_withStatus tasks
  simp only [Status.all, List.map_cons, List.map_nil, List.sum_cons, List.sum_nil] at total ⊢
  simp only [toInt_countOf few]
  omega

/-- Whatever views of a live project have been asked for, all of them answer from its tasks: the
counts are the lengths of the arrays, and the counts of the statuses add up to the count of all
tasks. The tasks are listed in the order in which they were made, and each of them stands in the
array of one status, once and in the same order. -/
theorem status_views_agree (reachable : s.Reachable) (bound : s.handles.bound? h = some ref)
    (held : s.heap.payloadAt ref.number = some (.project p)) (few : p.tasks.length < 2 ^ 31)
    (earlier : List (Nat × Call)) (views : ∀ call ∈ earlier, Views h call.2) (thread : Nat) :
    let tasks := s.heap.tasksOf p
    (s.performAll earlier).AnswersFrom h tasks thread ∧
    (∀ status, (countOf tasks status).toInt = (withStatus tasks status).length) ∧
    (Int32.ofNat tasks.length).toInt = tasks.length ∧
    (Status.all.map fun status => (countOf tasks status).toInt).sum = tasks.length ∧
    tasks.map (·.1) = p.tasks ∧ Chronological p.tasks ∧
    (∀ status, ((withStatus tasks status).map (·.1)).Sublist p.tasks) ∧
    ∀ task ∈ p.tasks, ∃ status, ((withStatus tasks status).map (·.1)).count task = 1 ∧
      ∀ other, other ≠ status → task ∉ (withStatus tasks other).map (·.1) := by
  intro tasks
  have all : tasks.map (·.1) = p.tasks := reachable.sound.map_tasksOf held
  have few' : tasks.length < 2 ^ 31 := by rwa [← List.length_map (·.1), all]
  have shown : s.Shown h ref p tasks := ⟨reachable, bound, held, rfl, few'⟩
  refine ⟨(shown.performAll views).answersFrom thread, toInt_countOf few',
    Int32.toInt_ofNat_of_lt few', sum_countOf few', all, reachable.forest.chronological held,
    fun status => ?_, fun _ => shown.exists_status⟩
  rw [← all]
  exact List.filter_sublist.map _

/-- Of two tasks one is completed: the dictionary tells this after all other views. -/
theorem one_of_two_completed :
    let project : Handle := ⟨0x100000001⟩
    let text : Handle := ⟨0x100000002⟩
    let createTask : Binding :=
      ⟨"IProject_CreateTask", .project, "CreateTask", .call [.handle, .handle] (some .handle)⟩
    let complete : Binding := ⟨"ITask_Complete", .task, "Complete", .call [] none⟩
    let s := performAll {} [(0, .createAs .project), (0, .createText (.text "a")),
      (0, .member createTask project [.handle text, .handle text]),
      (0, .member createTask project [.handle text, .handle text]),
      (0, .member complete ⟨0x100000004⟩ [])]
    let t := s.performAll [(1, .member .getTasks project []), (1, .member .getTaskCount project [])]
    ∃ tasks, tasks.length = 2 ∧ t.AnswersFrom project tasks 2 ∧
      [0, 1, 2, 3, 4].map (countAnswer (countOf tasks)) =
        [⟨.bool true, [.i32 0, .i32 1]⟩, ⟨.bool true, [.i32 1, .i32 0]⟩,
          ⟨.bool true, [.i32 2, .i32 1]⟩, ⟨.bool true, [.i32 3, .i32 0]⟩, ⟨.bool false, []⟩] := by
  dsimp only
  generalize built : performAll {} _ = s
  have reachable : s.Reachable := by
    rw [← built]
    refine Leads.refl.performAll fun call hcall => ?_
    simp only [List.mem_cons, List.not_mem_nil, or_false] at hcall
    rcases hcall with rfl | rfl | rfl | rfl | rfl
    · exact .of_symbol "IProject_Create" [] rfl
    · exact .of_symbol "idlbridge_string_create" [.text _] rfl
    · exact .of_symbol "IProject_CreateTask" [.handle _, .handle _, .handle _] rfl
    · exact .of_symbol "IProject_CreateTask" [.handle _, .handle _, .handle _] rfl
    · exact .of_symbol "ITask_Complete" [.handle _] rfl
  let ref : Ref := ⟨0, .interface TaskModel.ids.project⟩
  have facts : s.handles.bound? ⟨0x100000001⟩ = some ref ∧
      (s.heap.project? ref).map (fun p => (p.tasks.length,
        [0, 1, 2, 3, 4].map (countAnswer (countOf (s.heap.tasksOf p))))) =
          some (2, [⟨.bool true, [.i32 0, .i32 1]⟩, ⟨.bool true, [.i32 1, .i32 0]⟩,
            ⟨.bool true, [.i32 2, .i32 1]⟩, ⟨.bool true, [.i32 3, .i32 0]⟩,
            ⟨.bool false, []⟩]) := by
    rw [← built]
    decide +kernel
  obtain ⟨bound, found⟩ := facts
  obtain ⟨p, project, found⟩ := Option.map_eq_some_iff.mp found
  obtain ⟨length, told⟩ := Prod.mk.inj found
  obtain ⟨answers, _, _, _, all, _⟩ := status_views_agree reachable bound
    (Heap.project?_eq_some_iff.mp project) (by rw [length]; decide)
    [(1, .member .getTasks _ []), (1, .member .getTaskCount _ [])]
    (by
      simp only [List.forall_mem_cons]
      exact ⟨.all, .total, nofun⟩) 2
  exact ⟨_, by rw [← length, ← all, List.length_map], answers, told⟩

end State

end ObjectBoundary
