import ObjectBoundary.Proofs.Entry.Call
import ObjectBoundary.Proofs.Handle.History

/-!
# The books of a request

What a request does to the counters and to the recorded errors, apart from the guard. It leaves the
counts of calls and of failures and all recorded errors alone, and whenever it gives out or ends a
handle it counts that. A second release is noticed only when a caller asks for one: the handles that
a request takes back are those that it has just given out.
-/

namespace ObjectBoundary

/-- Ending a live handle leaves one less. -/
theorem HandleTable.WellFormed.live_release {table table' : HandleTable} (wf : table.WellFormed)
    {h : Handle} {expected : Option Tag} {ref : Ref}
    (ok : table.release h expected = .ok (ref, table')) : table.live = table'.live + 1 := by
  obtain ⟨found, rfl⟩ := release_cases ok
  have positive : 0 < table.slots.countP (·.entry.isSome) :=
    List.countP_pos_iff.mpr ⟨_, List.mem_of_getElem? found, rfl⟩
  have live_eq := wf.live_eq
  simp only [vacate]
  omega

theorem HandleTable.WellFormed.live_issue {table table' : HandleTable} (wf : table.WellFormed)
    {limit : Nat} {ref : Ref} {h : Handle} (ok : table.issue limit ref = .ok (h, table')) :
    table'.live = table.live + 1 := by
  rcases wf.issue_cases ok with ⟨_, _, _, _, _, _, _, rfl⟩ | ⟨_, _, _, rfl⟩ <;> rfl

/-- The three ways in which a handle names nothing. -/
theorem HandleTable.find_eq_error {table : HandleTable} {h : Handle} {cause : HandleError}
    (failed : table.find h = .error cause) :
    cause = .null ∨ cause = .unknown h ∨ cause = .stale h := by
  have dead_cases (slot : Slot) : dead slot h = .stale h ∨ dead slot h = .unknown h := by
    unfold dead
    split <;> simp
  unfold find at failed
  grind

theorem HandleTable.resolve_none_eq_error {table : HandleTable} {h : Handle}
    {cause : HandleError} : table.resolve h none = .error cause ↔ table.find h = .error cause := by
  rw [resolve_none]
  cases table.find h <;> simp [Except.map]

/-- A live handle is kept only because it has another tag. -/
theorem HandleTable.release_eq_error_of_found {table : HandleTable} {h : Handle}
    {expected : Option Tag} {entry : Slot × Ref} {cause : HandleError}
    (found : table.find h = .ok entry) (failed : table.release h expected = .error cause) :
    ∃ wanted tag, cause = .mismatch wanted tag := by
  simp only [release, found, checkTag, bind, Except.bind, pure, Except.pure] at failed
  grind

namespace State

/-- Every handle that was given out is live or has been ended. -/
structure Balanced (s : State) : Prop where
  table : s.handles.WellFormed
  issued_eq : s.counters.handlesIssued = s.counters.handlesReleased + s.handles.live

/-- A request has kept the books and noticed a number of second releases. -/
structure Posted (twice : Nat) (s t : State) : Prop where
  calls_eq : t.counters.calls = s.counters.calls
  failedCalls_eq : t.counters.failedCalls = s.counters.failedCalls
  doubleReleases_eq : t.counters.doubleReleases = s.counters.doubleReleases + twice
  lastErrors_eq : t.lastErrors = s.lastErrors
  balanced : s.Balanced → t.Balanced
  /-- The table stays well formed, and no handle that was given out is forgotten. -/
  remembers : s.handles.WellFormed →
    t.handles.WellFormed ∧ ∀ h, s.handles.Given h → t.handles.Given h

variable {s t u : State} {n m : Nat}

theorem Posted.refl (s : State) : s.Posted 0 s :=
  ⟨rfl, rfl, rfl, rfl, fun balanced => balanced, fun wf => ⟨wf, fun _ given => given⟩⟩

theorem Posted.trans (first : Posted n s t) (second : Posted m t u) : Posted (n + m) s u where
  calls_eq := second.calls_eq.trans first.calls_eq
  failedCalls_eq := second.failedCalls_eq.trans first.failedCalls_eq
  doubleReleases_eq := by
    rw [second.doubleReleases_eq, first.doubleReleases_eq, Nat.add_assoc]
  lastErrors_eq := second.lastErrors_eq.trans first.lastErrors_eq
  balanced balanced := second.balanced (first.balanced balanced)
  remembers wf := by
    obtain ⟨wf', kept⟩ := first.remembers wf
    obtain ⟨wf'', kept'⟩ := second.remembers wf'
    exact ⟨wf'', fun h given => kept' h (kept h given)⟩

/-- What concerns neither handles nor counters nor recorded errors is not in the books. -/
theorem posted_of_eq (handles_eq : t.handles = s.handles) (counters_eq : t.counters = s.counters)
    (lastErrors_eq : t.lastErrors = s.lastErrors) : Posted 0 s t := by
  refine ⟨by rw [counters_eq], by rw [counters_eq], by rw [counters_eq, Nat.add_zero],
    lastErrors_eq, fun balanced => ?_, fun wf => ?_⟩
  · exact ⟨handles_eq ▸ balanced.table, by rw [handles_eq, counters_eq]; exact balanced.issued_eq⟩
  · rw [handles_eq]
    exact ⟨wf, fun _ given => given⟩

end State

/-! ### Rules for requests -/

namespace Op

variable {α β : Type} {s : State}

/-- A request keeps the books and notices no second release, in whatever state. -/
def Posts (op : Op α) : Prop := ∀ s : State, State.Posted 0 s (s.run op).2

variable {op : Op α} {next : α → Op β}

/-- The books after a request, whether it succeeds or fails. -/
theorem meets_posted_iff {n : Nat} : op.Meets s (fun _ t => State.Posted n s t)
    (fun _ t => State.Posted n s t) ↔ State.Posted n s (s.run op).2 := by
  unfold Meets
  split <;> simp [*]

theorem Posts.meets (h : op.Posts) : op.Meets s (fun _ t => State.Posted 0 s t)
    fun _ t => State.Posted 0 s t := meets_posted_iff.mpr (h s)

@[simp] theorem posts_pure (a : α) : (pure a : Op α).Posts := fun s => .refl s

@[simp] theorem posts_throw (e : Failure) : (throw e : Op α).Posts := fun s => .refl s

@[simp] theorem posts_fail (fault : Fault) : (fail fault : Op α).Posts := fun s => .refl s

@[simp] theorem posts_invalid (cause : BadArgument) : (invalid cause : Op α).Posts :=
  fun s => .refl s

@[simp] theorem posts_get : (get : Op State).Posts := fun s => .refl s

/-- What keeps the books adds nothing to those of the request that it follows. -/
theorem posted_bind {n : Nat} (first : State.Posted n s (s.run op).2)
    (hnext : ∀ a, (next a).Posts) : State.Posted n s (s.run (op >>= next)).2 := by
  rw [State.run_bind]
  cases hr : s.run op with
  | mk result t =>
    rw [hr] at first
    cases result with
    | ok a => exact first.trans (hnext a t)
    | error e => exact first

@[simp] theorem Posts.bind (h : op.Posts) (hnext : ∀ a, (next a).Posts) : (op >>= next).Posts :=
  fun s => posted_bind (h s) hnext

/-- A request that goes on from the state that it has read. -/
theorem posts_of_read {next : State → Op β} (h : ∀ s, State.Posted 0 s (s.run (next s)).2) :
    (get >>= next).Posts := by
  intro s
  rw [State.run_bind]
  exact h s

theorem Posts.after_set {next : PUnit → Op β} (hnext : ∀ a, (next a).Posts) {s t : State}
    (put : State.Posted 0 s t) : State.Posted 0 s (s.run (set t >>= next)).2 := by
  rw [State.run_bind]
  exact put.trans (hnext ⟨⟩ t)

theorem Posts.tryCatch {handler : Failure → Op α} (h : op.Posts) (caught : ∀ e, (handler e).Posts) :
    (tryCatch op handler).Posts := by
  intro s
  have first := h s
  rw [State.run_tryCatch]
  cases hr : s.run op with
  | mk result t =>
    rw [hr] at first
    cases result with
    | ok a => exact first
    | error e => exact first.trans (caught e t)

@[simp] theorem posts_map {f : α → β} (h : op.Posts) : (f <$> op).Posts := by
  rw [← bind_pure_comp]
  exact h.bind fun a => posts_pure (f a)

@[simp] theorem posts_ite {c : Prop} [Decidable c] {first second : Op α} :
    (if c then first else second).Posts ↔ (c → first.Posts) ∧ (¬ c → second.Posts) := by
  split <;> simp [*]

theorem posts_modify {change : State → State} (handles_eq : ∀ s, (change s).handles = s.handles)
    (counters_eq : ∀ s, (change s).counters = s.counters)
    (lastErrors_eq : ∀ s, (change s).lastErrors = s.lastErrors) :
    (modify change : Op PUnit).Posts :=
  fun s => State.posted_of_eq (handles_eq s) (counters_eq s) (lastErrors_eq s)

@[simp] theorem posts_check (x : Except Fault α) : (check x).Posts := by
  cases x <;> simp [check]

@[simp] theorem posts_consent (x : Except Refusal α) : (consent x).Posts := by
  cases x <;> simp [consent]

@[simp] theorem posts_attempt (x : Except Failure α) : (attempt x).Posts := by
  cases x <;> simp [attempt]

@[simp] theorem create_posts (tag : Tag) (p : Payload) : (create tag p).Posts :=
  fun _ => State.posted_of_eq rfl rfl rfl

@[simp] theorem replace_posts (ref : Ref) (p : Payload) : (replace ref p).Posts :=
  fun _ => State.posted_of_eq rfl rfl rfl

@[simp] theorem payload_posts (ref : Ref) : (payload ref).Posts := by
  unfold payload
  refine posts_get.bind fun s => ?_
  split <;> simp

@[simp] theorem resolve_posts (h : Handle) (expected : Option Tag) :
    (resolve h expected).Posts := by
  unfold resolve
  refine posts_get.bind fun s => ?_
  split <;> simp

@[simp] theorem textOf_posts (ref : Ref) : (textOf ref).Posts := by
  unfold textOf
  refine (payload_posts ref).bind fun p => ?_
  split <;> simp

@[simp] theorem readText_posts (h : Handle) : (readText h).Posts := by simp [readText]

/-! ### Handles -/

@[simp] theorem issue_posts (ref : Ref) : (issue ref).Posts := by
  intro s
  rw [State.run_issue]
  cases issued : s.handles.issue s.options.maxLiveHandles ref with
  | error cause => exact State.posted_of_eq rfl rfl rfl
  | ok found =>
    refine ⟨rfl, rfl, rfl, rfl, fun balanced => ⟨balanced.table.issue issued, ?_⟩, fun wf => ?_⟩
    · have live := balanced.table.live_issue issued
      have issued_eq := balanced.issued_eq
      simp only [State.granted]
      omega
    · have gives := wf.issue_gives issued
      have wf' := wf.issue issued
      exact ⟨wf', fun k given => (gives.given_iff wf' k).1.mpr (.inl given)⟩

/-- Ending a handle is noticed as a second release exactly when the handle is stale. -/
theorem release_posted (s : State) (h : Handle) (expected : Option Tag) :
    State.Posted (if s.handles.resolve h none = .error (.stale h) then 1 else 0) s
      (s.run (release h expected)).2 := by
  simp only [HandleTable.resolve_none_eq_error]
  rw [State.run_release]
  cases found : s.handles.find h with
  | error cause =>
    rcases HandleTable.find_eq_error found with rfl | rfl | rfl
    · simp only [HandleTable.release, found]
      exact .refl s
    · simp only [HandleTable.release, found]
      exact .refl s
    · simp only [HandleTable.release, found, if_true]
      exact ⟨rfl, rfl, rfl, rfl, fun balanced => ⟨balanced.table, balanced.issued_eq⟩,
        fun wf => ⟨wf, fun _ given => given⟩⟩
  | ok entry =>
    simp only [reduceCtorEq, if_false]
    cases released : s.handles.release h expected with
    | error cause =>
      obtain ⟨expected, found, rfl⟩ := HandleTable.release_eq_error_of_found found released
      exact .refl s
    | ok given =>
      refine ⟨rfl, rfl, rfl, rfl, fun balanced => ⟨balanced.table.release released, ?_⟩,
        fun wf => ?_⟩
      · have live := balanced.table.live_release released
        have issued_eq := balanced.issued_eq
        simp only [State.revoked]
        omega
      · have takes := wf.release_takes released
        exact ⟨wf.release released, fun k given => (takes.given_iff k).mpr given⟩

@[simp] theorem duplicate_posts (h : Handle) (expected : Option Tag) :
    (duplicate h expected).Posts := by simp [duplicate]

@[simp] theorem refcount_posts (h : Handle) (expected : Option Tag) :
    (refcount h expected).Posts := by simp [refcount]

@[simp] theorem issueNew_posts (tag : Tag) (p : Payload) : (issueNew tag p).Posts := by
  simp [issueNew]

@[simp] theorem issueText_posts (text : String) : (issueText text).Posts := by simp [issueText]

@[simp] theorem issueCollection_posts (c : Collection) : (issueCollection c).Posts := by
  simp [issueCollection]

/-! ### Values -/

@[simp] theorem kindOf_posts (w : Wire) : (Op.kindOf w).Posts := by
  unfold Op.kindOf
  split <;> simp

@[simp] theorem contentOf_posts (ref : Ref) : (contentOf ref).Posts := by
  unfold contentOf
  split
  · simp
  · simp
  all_goals
    refine (payload_posts ref).bind fun p => ?_
    split <;> simp

@[simp] theorem typedContentOf_posts (ref : Ref) (ty : Ty) : (typedContentOf ref ty).Posts := by
  refine (contentOf_posts ref).bind fun value => ?_
  split <;> simp

@[simp] theorem inbound_posts (w : Wire) (ty : Ty) : (inbound w ty).Posts := by
  unfold inbound
  refine (kindOf_posts w).bind fun kind => posts_get.bind fun s => ?_
  cases ty <;> simp

@[simp] theorem inboundUntyped_posts (w : Wire) : (inboundUntyped w).Posts := by
  refine (kindOf_posts w).bind fun kind => ?_
  cases kind <;> simp

@[simp] theorem inboundKey_posts (w : Wire) : (inboundKey w).Posts := by
  refine (inboundUntyped_posts w).bind fun key => ?_
  cases key <;> simp

@[simp] theorem inboundArguments_posts (ws : List Wire) (ps : List Parameter) :
    (inboundArguments ws ps).Posts := by
  fun_induction inboundArguments ws ps with
  | case1 w ws p ps ih => simp [ih]
  | case2 => simp

@[simp] theorem enumeratorOut_posts (id : EnumId) (n : Int64) : (enumeratorOut id n).Posts := by
  unfold enumeratorOut
  refine posts_get.bind fun s => (posts_check _).bind fun m => ?_
  split <;> simp

@[simp] theorem wrongResult_posts (found : String) (ty : Ty) :
    (wrongResult found ty : Op α).Posts := by simp [wrongResult]

@[simp] theorem outbound_posts (value : Value) (ty : Ty) : (outbound value ty).Posts := by
  unfold outbound
  split
  case h_13 =>
    split
    · exact posts_get.bind fun s => by simp
    · simp
  all_goals simp

@[simp] theorem outboundUntyped_posts (value : Value) : (outboundUntyped value).Posts := by
  cases value <;> simp [outboundUntyped]

@[simp] theorem outboundAs_posts (value : Value) (declared : Option Ty) :
    (outboundAs value declared).Posts := by
  cases declared <;> simp [outboundAs]

/-! ### Collections behind handles -/

@[simp] theorem collection_posts (h : Handle) (kind : CollectionKind) :
    (collection h kind).Posts := by
  refine (resolve_posts _ _).bind fun ref => (payload_posts ref).bind fun p => ?_
  split <;> simp

@[simp] theorem newCollection_posts (kind : CollectionKind) : (newCollection kind).Posts := by
  simp [newCollection]

@[simp] theorem countItems_posts (h : Handle) (kind : CollectionKind) :
    (countItems h kind).Posts := by simp [countItems]

@[simp] theorem pushItem_posts (h : Handle) (item : Wire) : (pushItem h item).Posts :=
  (collection_posts h .array).bind fun _ => (inboundUntyped_posts item).bind fun _ => by simp

@[simp] theorem insertMember_posts (h : Handle) (item : Wire) : (insertMember h item).Posts :=
  (collection_posts h .set).bind fun _ => (inboundUntyped_posts item).bind fun _ => by simp

@[simp] theorem insertEntry_posts (h : Handle) (key item : Wire) :
    (insertEntry h key item).Posts :=
  (collection_posts h .dict).bind fun _ => (inboundKey_posts key).bind fun _ =>
    (inboundUntyped_posts item).bind fun _ => by simp

@[simp] theorem arrayItem_posts (h : Handle) (index : Nat) : (arrayItem h index).Posts :=
  (collection_posts h .array).bind fun _ => by simp

@[simp] theorem nextMember_posts (h : Handle) : (nextMember h).Posts := by
  refine (collection_posts h .set).bind fun found => ?_
  simp only
  split
  · simp
  · exact (outboundAs_posts _ _).bind fun value => by simp

@[simp] theorem resetCursor_posts (h : Handle) (kind : CollectionKind) :
    (resetCursor h kind).Posts := by simp [resetCursor]

/-! ### The task model -/

@[simp] theorem declared_posts (name : String) (found : Option α) :
    (declared name found).Posts := by
  cases found <;> simp [declared]

@[simp] theorem taskIds_posts : taskIds.Posts := by
  refine posts_of_read fun s => ?_
  split
  · exact .refl s
  · split
    · exact .refl s
    · refine Posts.after_set (fun _ => ?_) (State.posted_of_eq rfl rfl rfl)
      refine (declared_posts _ _).bind fun task => (declared_posts _ _).bind fun project => ?_
      refine (declared_posts _ _).bind fun manager => (declared_posts _ _).bind fun priority => ?_
      refine (declared_posts _ _).bind fun status => Posts.bind ?_ fun _ => posts_pure _
      exact posts_modify (fun _ => rfl) (fun _ => rfl) fun _ => rfl

@[simp] theorem nativeIds_posts : nativeIds.Posts :=
  taskIds_posts.tryCatch fun _ => posts_fail _

@[simp] theorem freshTaskId_posts : freshTaskId.Posts := fun _ => State.posted_of_eq rfl rfl rfl

@[simp] theorem freshProjectId_posts : freshProjectId.Posts :=
  fun _ => State.posted_of_eq rfl rfl rfl

theorem observeId_posts (id : String) : (modify (·.observeId id) : Op PUnit).Posts := by
  intro s
  change State.Posted 0 s (s.observeId id)
  unfold State.observeId
  split
  · exact State.posted_of_eq rfl rfl rfl
  · split
    · exact State.posted_of_eq rfl rfl rfl
    · exact .refl s

@[simp] theorem today_posts : today.Posts := by simp [today]

@[simp] theorem newTask_posts (ids : TaskIds) (task : Task) : (newTask ids task).Posts := by
  simp [newTask]

@[simp] theorem newProject_posts (ids : TaskIds) (project : Project Ref) :
    (newProject ids project).Posts := by simp [newProject]

theorem posts_mapM {f : α → Op β} (each : ∀ a, (f a).Posts) (items : List α) :
    (items.mapM f).Posts := by
  induction items with
  | nil => simp
  | cons item items ih =>
    rw [List.mapM_cons]
    exact (each item).bind fun _ => ih.bind fun _ => posts_pure _

end Op

open Op

namespace Project

variable {p : Project Ref} {self : Ref}

@[simp] theorem createTask_posts (title description : String) :
    (p.createTask self title description).Posts := by
  unfold createTask
  refine posts_ite.mpr ⟨fun _ => (posts_fail _).bind fun _ => ?_, fun _ => ?_⟩
  all_goals
    refine nativeIds_posts.bind fun ids => freshTaskId_posts.bind fun id => ?_
    exact posts_get.bind fun s => (newTask_posts _ _).bind fun ref => by simp

@[simp] theorem deleteTask_posts (id : String) : (p.deleteTask self id).Posts := by
  refine posts_get.bind fun s => ?_
  split <;> simp

theorem restore_posts (ids : TaskIds) (saved : Project Task) : (restore ids saved).Posts := by
  refine Posts.bind (posts_mapM (fun task => ?_) _) fun tasks => ?_
  · exact Posts.bind (observeId_posts task.id) fun _ => newTask_posts _ _
  · exact Posts.bind (observeId_posts saved.id) fun _ => newProject_posts _ _

theorem invoke_posts (method : String) (arguments : List Value) :
    (p.invoke self method arguments).Posts := by
  refine posts_get.bind fun s => ?_
  simp only
  split
  case h_1 => exact (posts_consent _).bind fun _ => (posts_consent _).bind fun _ => by simp
  case h_2 =>
    refine (posts_consent _).bind fun _ => ?_
    split <;> simp
  all_goals simp

end Project

namespace Manager

variable {m : Manager Ref} {self : Ref}

@[simp] theorem createProject_posts (name : String) : (m.createProject self name).Posts := by
  unfold createProject
  refine posts_ite.mpr ⟨fun _ => (posts_fail _).bind fun _ => ?_, fun _ => ?_⟩
  all_goals
    refine nativeIds_posts.bind fun ids => freshProjectId_posts.bind fun id => ?_
    exact (newProject_posts _ _).bind fun ref => by simp

@[simp] theorem deleteProject_posts (id : String) : (m.deleteProject self id).Posts := by
  refine posts_get.bind fun s => ?_
  split <;> simp

@[simp] theorem save_posts (path : String) : (m.save path).Posts := by
  refine posts_of_read fun s => ?_
  split
  · exact State.posted_of_eq rfl rfl rfl
  · exact .refl s

@[simp] theorem load_posts (path : String) : (Manager.load self path).Posts := by
  refine posts_get.bind fun s => ?_
  split
  all_goals
    refine Posts.bind (by simp) fun text => (posts_consent _).bind fun archive => ?_
    refine nativeIds_posts.bind fun ids => ?_
    exact (posts_mapM (Project.restore_posts ids) _).bind fun projects => by simp

theorem invoke_posts (method : String) (arguments : List Value) :
    (m.invoke self method arguments).Posts := by
  refine posts_get.bind fun s => ?_
  simp only
  split
  case h_2 =>
    refine (posts_consent _).bind fun _ => ?_
    split <;> simp
  all_goals simp

end Manager

/-! ### Implementations and their members -/

namespace Op

variable {α : Type}

@[simp] theorem notImplementation_posts (ref : Ref) : (notImplementation ref : Op α).Posts := by
  simp [notImplementation]

@[simp] theorem readProperty_posts (ref : Ref) (name : String) : (readProperty ref name).Posts := by
  refine (payload_posts ref).bind fun p => ?_
  cases p <;> simp

@[simp] theorem writeProperty_posts (ref : Ref) (name : String) (value : Value) :
    (writeProperty ref name value).Posts := by
  refine (payload_posts ref).bind fun p => ?_
  cases p <;> simp

@[simp] theorem callMethod_posts (ref : Ref) (method : String) (arguments : List Value) :
    (callMethod ref method arguments).Posts := by
  refine (payload_posts ref).bind fun p => ?_
  cases p with
  | task t => exact today_posts.bind fun day => (posts_consent _).bind fun _ => by simp
  | project p => exact Project.invoke_posts method arguments
  | manager m => exact Manager.invoke_posts method arguments
  | scripted s => exact (posts_attempt _).bind fun _ => by simp
  | text | collection => simp

@[simp] theorem manufacture_posts (factory : Factory) : (manufacture factory).Posts := by
  cases factory with
  | scripted script =>
    simp only [manufacture]
    split <;> simp
  | _ => simp [manufacture]

@[simp] theorem construct_posts (id : InterfaceId) : (construct id).Posts := by
  refine posts_get.bind fun s => ?_
  split <;> simp

@[simp] theorem createObject_posts (id : InterfaceId) : (createObject id).Posts := by
  simp [createObject]

@[simp] theorem target_posts (h : Handle) (id : InterfaceId) : (target h id).Posts := by
  refine (resolve_posts _ _).bind fun ref => posts_get.bind fun s => ?_
  split <;> simp

@[simp] theorem interfaceOf_posts (h : Handle) : (interfaceOf h).Posts := by
  refine (resolve_posts _ _).bind fun ref => ?_
  split <;> simp

@[simp] theorem declaredProperty_posts (d : InterfaceDescriptor) (name : String) :
    (declaredProperty d name).Posts := by
  unfold declaredProperty
  split <;> simp

@[simp] theorem declaredMethod_posts (d : InterfaceDescriptor) (name : String) :
    (declaredMethod d name).Posts := by
  unfold declaredMethod
  split <;> simp

@[simp] theorem getProperty_posts (h : Handle) (id : InterfaceId) (name : String) :
    (getProperty h id name).Posts :=
  (target_posts h id).bind fun _ => (declaredProperty_posts _ _).bind fun _ => by simp

@[simp] theorem setProperty_posts (h : Handle) (id : InterfaceId) (name : String) (w : Wire) :
    (setProperty h id name w).Posts := by
  refine (target_posts h id).bind fun _ => (declaredProperty_posts _ _).bind fun p => ?_
  simp only [posts_ite]
  simp

@[simp] theorem invoke_posts (h : Handle) (id : InterfaceId) (name : String) (ws : List Wire) :
    (invoke h id name ws).Posts := by
  refine (target_posts h id).bind fun _ => (declaredMethod_posts _ _).bind fun m => ?_
  refine posts_ite.mpr ⟨fun _ => (posts_invalid _).bind fun _ => ?_, fun _ => ?_⟩
  all_goals exact (inboundArguments_posts _ _).bind fun arguments => by simp

@[simp] theorem expectKind_posts (kind : Kind) (w : Wire) : (expectKind kind w).Posts := by
  simp [expectKind]

@[simp] theorem nativeTask_posts (h : Handle) : (nativeTask h).Posts := by
  refine taskIds_posts.bind fun ids => (resolve_posts _ _).bind fun ref => ?_
  refine posts_get.bind fun s => ?_
  split <;> simp

@[simp] theorem tagCount_posts (h : Handle) : (tagCount h).Posts := by simp [tagCount]

@[simp] theorem tagItem_posts (h : Handle) (index : Nat) : (tagItem h index).Posts := by
  refine (nativeTask_posts h).bind fun found => ?_
  simp only
  split <;> simp

@[simp] theorem clearTags_posts (h : Handle) : (clearTags h).Posts := by simp [clearTags]

@[simp] theorem addTag_posts (h value : Handle) : (addTag h value).Posts :=
  (nativeTask_posts h).bind fun _ => by simp

end Op

theorem Binding.run_posts (b : Binding) (h : Handle) (ws : List Wire) : (b.run h ws).Posts := by
  refine taskIds_posts.bind fun ids => ?_
  split
  · exact (getProperty_posts _ _ _).bind fun w => by simp
  · simp
  · exact (invoke_posts _ _ _ _).bind fun w => by simp
  · simp

/-! ### Handles that are taken back -/

namespace Op

variable {s t u : State} {h : Handle} {ref : Ref} {w : Wire} {e : Failure}

/-- Ending a live handle is no second release. -/
theorem release_live_posted (live : s.handles.bound? h = some ref) :
    ∃ n t, s.run (release h none) = (.ok n, t) ∧ State.Posted 0 s t := by
  obtain ⟨handles, released⟩ := HandleTable.release_of_bound live
  have ends : s.run (release h none) = (.ok (s.heap.count ref - 1), s.revoked ref handles) := by
    rw [State.run_release, released]
  have posted := release_posted s h none
  have resolved : s.handles.resolve h none = .ok ref :=
    HandleTable.resolve_eq_ok_iff.mpr ⟨live, fun tag wanted => by cases wanted⟩
  rw [ends, resolved, if_neg (by simp)] at posted
  exact ⟨_, _, ends, posted⟩

/-- What was lent and is taken back at once was live. -/
theorem discard_posted (lent : s.Lent w t) (refused : t.Refused e u) :
    State.Posted 0 u (u.run (discard w)).2 := by
  unfold discard
  rcases lent.undo refused with ⟨plain, _⟩ | ⟨h, ref, hw, live, _⟩
  · rw [plain]
    exact .refl u
  · obtain ⟨n, v, ends, posted⟩ := release_live_posted live
    rw [hw]
    simp only [State.run_tryCatch, State.run_bind, ends, State.run_pure]
    exact posted

theorem nextEntry_posted (sound : s.Sound) (h : Handle) :
    State.Posted 0 s (s.run (nextEntry h)).2 := by
  refine meets_posted_iff.mp ?_
  refine (collection_finds sound h .dict).bind_meets (fun _ _ => .refl s) fun (ref, c) found => ?_
  obtain ⟨holds, hc⟩ := found
  simp only
  cases hcurrent : c.current? with
  | none => exact meets_pure (.refl s)
  | some entry =>
    have hentry : entry ∈ c.entries := List.mem_of_getElem? hcurrent
    have carries := sound.carries holds.has hc
    have keyCarries := carries.subset (Collection.refs_key_subset hentry)
    have valueCarries := carries.subset (Collection.refs_value_subset hentry)
    have first := (outboundAs_meets sound keyCarries c.keyTy).and (outboundAs_posts _ _).meets
    refine (first.imp (fun _ _ h => h) fun _ _ h => h.2).bind fun key t ⟨lent, posted⟩ => ?_
    have second := (outboundAs_meets lent.sound (valueCarries.grown lent.grown) c.elemTy).and
      (outboundAs_posts _ _).meets
    -- The key is taken back when the value cannot be given out; it is live until then.
    refine (second.tryCatch fun e u ⟨refused, posted'⟩ => ?_).bind fun value u ⟨_, posted'⟩ => ?_
    · have back := meets_posted_iff.mpr (discard_posted lent refused)
      refine (back.imp (fun _ _ h => posted.trans (posted'.trans h))
        fun _ _ h => posted.trans (posted'.trans h)).bind fun _ _ h => meets_throw h
    · have moved : (do replace ref (.collection c.advance); return some (key, value) :
          Op (Option (Wire × Wire))).Posts := by simp
      exact (moved.meets).imp (fun _ _ h => posted.trans (posted'.trans h))
        fun _ _ h => posted.trans (posted'.trans h)

end Op

namespace Call

/-- The handle that a call is asked to end. -/
def released? : Call → Option Handle
  | .release h | .releaseText h | .releaseCollection _ h | .releaseAs _ h => some h
  | _ => none

end Call

/-- A call is asked to end a handle and finds it stale. -/
def State.releasesStale (s : State) (call : Call) : Bool :=
  call.released?.any fun h => s.handles.resolve h none = .error (.stale h)

namespace Call

variable {s t u : State} {w : Wire}

@[simp] theorem requireOutput_posts (wanted : Bool) : (requireOutput wanted).Posts := by
  simp [requireOutput]

@[simp] theorem ofHandle_posts {op : Op Handle} (h : op.Posts) : (ofHandle op).Posts :=
  h.bind fun _ => posts_pure _

@[simp] theorem ofSize_posts {op : Op Nat} (h : op.Posts) : (ofSize op).Posts :=
  h.bind fun _ => posts_pure _

@[simp] theorem ofDone_posts {α : Type} {op : Op α} (h : op.Posts) : (ofDone op).Posts :=
  h.bind fun _ => posts_pure _

/-- A result that is not wanted is live until it is given back. -/
theorem deliver_posted (lent : t.Lent w u) (wanted : Bool) :
    State.Posted 0 u (u.run (deliver wanted w)).2 := by
  cases wanted with
  | true => exact .refl u
  | false =>
    rcases lent.bound with ⟨plain, _⟩ | ⟨h, ref, hw, _, bound⟩
    · simp only [deliver, plain]
      exact .refl u
    · have live : u.handles.bound? h = some ref := by rw [bound, if_pos rfl]
      obtain ⟨n, v, ends, posted⟩ := release_live_posted live
      simp only [deliver, hw]
      exact posted_bind (ends ▸ posted) fun _ => posts_pure _

theorem invoke_posted (sound : s.Sound) (h : Handle) (method : TextArgument)
    (arguments : Option (List Wire)) (count : Nat) (wanted : Bool) :
    State.Posted 0 s (s.run (body (.invoke h method arguments count wanted))).2 := by
  have kept : ∀ e : Failure, e.toFault.namesObject = false → State.Posted 0 s s :=
    fun _ _ => .refl s
  refine meets_posted_iff.mp ?_
  refine (interfaceOf_finds h).bind_meets kept fun id _ => ?_
  refine (read_finds _ method).bind_meets kept fun name _ => ?_
  refine (readArguments_finds arguments count).bind_meets kept fun ws _ => ?_
  have called := (invoke_meets sound h id name ws).and (invoke_posts h id name ws).meets
  refine (called.imp (fun _ _ h => h) fun _ _ h => h.2).bind fun w u found => ?_
  obtain ⟨⟨⟨t, _, lent⟩, _⟩, posted⟩ := found
  exact (meets_posted_iff.mpr (deliver_posted lent wanted)).imp (fun _ _ h => posted.trans h)
    fun _ _ h => posted.trans h

/-- The task model is there or is registered first, which has nothing to do with handles. -/
theorem releaseAs_posted (sound : s.Sound) (role : Role) (h : Handle) :
    State.Posted (if s.handles.resolve h none = .error (.stale h) then 1 else 0) s
      (s.run (body (.releaseAs role h))).2 := by
  refine posted_bind ?_ fun _ => posts_pure _
  rw [State.run_bind]
  rcases sound.model with registered | ⟨unregistered, _⟩
  · rw [registered.run_taskIds]
    exact release_posted s h _
  · have first := taskIds_posts s
    rw [unregistered.run_taskIds] at first ⊢
    rw [← Nat.zero_add (ite _ _ _)]
    exact first.trans (release_posted s.withModel h _)

/-- What a call enters in the books: the second release that it is asked for. -/
theorem body_posted (sound : s.Sound) (call : Call) :
    State.Posted (if s.releasesStale call then 1 else 0) s (s.run call.body).2 := by
  have other (h : call.released? = none) (posted : State.Posted 0 s (s.run call.body).2) :
      State.Posted (if s.releasesStale call then 1 else 0) s (s.run call.body).2 := by
    simpa [State.releasesStale, h] using posted
  have ends {h : Handle} (asked : call.released? = some h)
      (posted : State.Posted (if s.handles.resolve h none = .error (.stale h) then 1 else 0) s
        (s.run call.body).2) :
      State.Posted (if s.releasesStale call then 1 else 0) s (s.run call.body).2 := by
    simpa [State.releasesStale, asked] using posted
  cases call with
  | release h => exact ends rfl (posted_bind (release_posted s h _) fun _ => posts_pure _)
  | releaseText h => exact ends rfl (posted_bind (release_posted s h _) fun _ => posts_pure _)
  | releaseCollection kind h =>
    exact ends rfl (posted_bind (release_posted s h _) fun _ => posts_pure _)
  | releaseAs role h => exact ends rfl (releaseAs_posted sound role h)
  | invoke h method arguments count wanted =>
    exact other rfl (invoke_posted sound h method arguments count wanted)
  | nextEntry h keyWanted valueWanted =>
    refine other rfl (meets_posted_iff.mp ?_)
    refine (requireOutput_finds _).bind_meets (fun _ _ => .refl s) fun _ _ => ?_
    refine meets_posted_iff.mpr (posted_bind (nextEntry_posted sound h) fun found => ?_)
    cases found <;> simp
  | startUp =>
    refine other rfl (Posts.bind ?_ (fun _ => posts_pure _) s)
    exact posts_modify (fun _ => rfl) (fun _ => rfl) fun _ => rfl
  | create interface =>
    refine other rfl (ofHandle_posts ((posts_check _).bind fun name => ?_) s)
    refine posts_get.bind fun s => ?_
    cases s.registry.interfaceByName? name <;> simp
  | getProperty h name wanted =>
    refine other rfl (Posts.bind (by simp) (fun id => ?_) s)
    exact (posts_check _).bind fun name => by simp
  | setProperty h name value =>
    refine other rfl (ofDone_posts (Posts.bind (by simp) fun id => ?_) s)
    exact (posts_check _).bind fun name => by simp
  | nextMember h wanted =>
    refine other rfl (Posts.bind (by simp) (fun _ => ?_) s)
    refine (nextMember_posts h).bind fun found => ?_
    cases found <;> simp
  | member b h ws =>
    refine other rfl ((b.run_posts h ws).bind (fun found => ?_) s)
    split <;> simp
  | _ =>
    refine other rfl ((?_ : Op.Posts _) s)
    simp [body]

end Call

end ObjectBoundary
