import ObjectBoundary.Proofs.FailedCalls

/-!
# Failed creations

A method that makes an object puts it on the list of its owner before the object gets a handle. So
when the handle is refused, the call fails and the new object stays on the list, without a handle.
For every other reason to fail the list is as it was.
-/

namespace ObjectBoundary

open Op State

namespace Payload

/-- The methods that make what an object lists, and the interface of what they make. -/
inductive Makes : Payload → String → InterfaceId → Prop where
  | project (p : Project Ref) : Makes (.project p) "CreateTask" TaskModel.ids.task
  | manager (m : Manager Ref) : Makes (.manager m) "CreateProject" TaskModel.ids.project

/-- An object with one more item at the end of its list. -/
def listing : Payload → Ref → Payload
  | .project p, ref => .project { p with tasks := p.tasks ++ [ref] }
  | .manager m, ref => .manager { m with projects := m.projects ++ [ref] }
  | p, _ => p

end Payload

/-- A call of a method of the object behind a handle, by the name of the method or by its own entry
point. -/
def Call.Calls (h : Handle) (method : String) : Call → Prop
  | .invoke handle (.text name) _ _ _ => handle = h ∧ name = method
  | .member binding handle _ => handle = h ∧ binding.member = method
  | _ => False

/-- An object that was not there before is on the list of its owner, and nothing else about the
owner has changed. -/
def State.Listed (s : State) (owner : Ref) (p : Payload) (t : State) : Prop :=
  ∃ ref, ref.number = s.heap.objects.length ∧
    t.heap.payloadAt owner.number = some (p.listing ref)

/-! ### Failures for other reasons -/

namespace HandleTable

theorem find_ne_limit (table : HandleTable) (h : Handle) (n : Nat) :
    table.find h ≠ .error (.limit n) := by
  have dead_ne (slot : Slot) : dead slot h ≠ .limit n := by
    unfold dead
    split <;> simp
  unfold find
  split
  · simp
  · split
    · simp
    · split
      · split <;> simp [dead_ne]
      · simp [dead_ne]

theorem resolve_ne_limit (table : HandleTable) (h : Handle) (expected : Option Tag) (n : Nat) :
    table.resolve h expected ≠ .error (.limit n) := by
  intro hbad
  unfold resolve at hbad
  cases hfind : table.find h with
  | error cause =>
    rw [hfind] at hbad
    cases hbad
    exact find_ne_limit table h n hfind
  | ok found =>
    rw [hfind] at hbad
    cases expected with
    | none => cases hbad
    | some tag =>
      simp only [checkTag, bind, Except.bind] at hbad
      split at hbad
      · next hcheck =>
        split at hcheck
        · cases hcheck
        · cases hcheck
          cases hbad
      · cases hbad

end HandleTable

namespace Op

variable {α β : Type} {s : State} {op : Op α}

/-- A request that never fails for want of a handle. -/
def Spares (op : Op α) : Prop :=
  ∀ s, op.Meets s (fun _ _ => True) fun e _ => e.toFault.code ≠ .handleLimit

theorem spares_pure (a : α) : (pure a : Op α).Spares := fun _ => meets_pure trivial

theorem spares_fail {fault : Fault} (h : fault.code ≠ .handleLimit) :
    (fail fault : Op α).Spares := fun _ => meets_fail h

theorem spares_invalid (cause : BadArgument) : (invalid cause : Op α).Spares :=
  spares_fail (by simp [Fault.code])

theorem spares_get {next : State → Op β} (h : ∀ s, (next s).Spares) : (get >>= next).Spares :=
  fun s => meets_get (h s s)

theorem Spares.bind {next : α → Op β} (h : op.Spares) (hnext : ∀ a, (next a).Spares) :
    (op >>= next).Spares :=
  fun s => (h s).bind fun a t _ => hnext a t

theorem spares_consent (x : Except Refusal α) : (consent x).Spares := by
  cases x with
  | ok a => exact spares_pure a
  | error cause => exact spares_fail (by simp [Fault.code])

theorem resolve_spares (h : Handle) (expected : Option Tag) : (resolve h expected).Spares := by
  refine spares_get fun s => ?_
  split
  · exact spares_pure _
  · next cause hcause =>
    cases cause with
    | limit n => exact absurd hcause (HandleTable.resolve_ne_limit _ _ _ n)
    | _ => exact spares_fail (by simp [tableFault, Fault.code])

theorem target_spares (h : Handle) (id : InterfaceId) : (target h id).Spares := by
  refine (resolve_spares h _).bind fun ref => spares_get fun s => ?_
  split
  · exact spares_pure _
  · exact spares_invalid _

theorem interfaceOf_spares (h : Handle) : (interfaceOf h).Spares := by
  refine (resolve_spares h none).bind fun ref => ?_
  split
  · exact spares_pure _
  · exact spares_get fun s => spares_fail (by simp [Fault.code])

theorem declaredMethod_spares (d : InterfaceDescriptor) (name : String) :
    (declaredMethod d name).Spares := by
  unfold declaredMethod
  split
  · exact spares_pure _
  · exact spares_invalid _

theorem payload_spares (ref : Ref) : (payload ref).Spares := by
  refine spares_get fun s => ?_
  split
  · exact spares_pure _
  · exact spares_fail (by simp [Fault.code])

theorem textOf_spares (ref : Ref) : (textOf ref).Spares := by
  refine (payload_spares ref).bind fun p => ?_
  split
  · exact spares_pure _
  · exact spares_fail (by simp [Fault.code])

theorem contentOf_spares (ref : Ref) : (contentOf ref).Spares := by
  unfold contentOf
  split
  · exact spares_pure _
  · exact (textOf_spares ref).bind fun text => spares_pure _
  all_goals
    refine (payload_spares ref).bind fun p => ?_
    split
    · exact spares_pure _
    · exact spares_get fun s => spares_fail (by simp [Fault.code])

theorem kindOf_spares (w : Wire) : (kindOf w).Spares := by
  unfold kindOf
  split
  · exact spares_pure _
  · exact spares_invalid _

theorem readArguments_spares (arguments : Option (List Wire)) (count : Nat) :
    (Call.readArguments arguments count).Spares := by
  unfold Call.readArguments
  split
  · exact spares_pure _
  · split
    · exact spares_pure _
    · exact spares_invalid _

/-- A reading step fails for another reason, so only what comes after it counts. -/
theorem Finds.bind_spared {wanted : α → Prop} {next : α → Op β} {ok : β → State → Prop}
    {after : State → Prop} (finds : op.Finds s wanted) (spares : op.Spares)
    (hnext : ∀ a, wanted a →
      (next a).Meets s ok fun e t => e.toFault.code = .handleLimit → after t) :
    (op >>= next).Meets s ok fun e t => e.toFault.code = .handleLimit → after t := by
  refine Meets.bind ((Meets.and finds (spares s)).imp (fun _ _ h => h) ?_) ?_
  · exact fun e t ⟨_, unlimited⟩ limit => absurd limit unlimited
  · rintro a t ⟨⟨rfl, ha⟩, _⟩
    exact hnext a ha

theorem inbound_string_spares (w : Wire) : (inbound w .string).Spares := by
  intro s
  refine (kindOf_finds w).bind_spared (kindOf_spares w) fun kind _ => meets_get ?_
  by_cases hkind : kind = s.registry.kindOf .string
  · simp only [hkind, ne_eq, not_true_eq_false, if_false]
    refine (resolve_finds w.handleBits _).bind_spared (resolve_spares _ _) fun ref ⟨_, htag⟩ => ?_
    refine (contentOf_spares ref s).bind fun value t _ => ?_
    rw [htag _ rfl]
    exact meets_pure trivial
  · simp only [ne_eq, hkind, not_false_eq_true, if_true]
    exact meets_fail_bind (by simp [Failure.toFault, Fault.code])

theorem inboundArguments_spares {ps : List Parameter} (texts : ∀ p ∈ ps, p.ty = .string)
    (ws : List Wire) : (inboundArguments ws ps).Spares := by
  induction ws generalizing ps with
  | nil => exact spares_pure []
  | cons w ws ih =>
    cases ps with
    | nil => exact spares_pure []
    | cons p ps =>
      unfold inboundArguments
      rw [texts p (by simp)]
      refine (inbound_string_spares w).bind fun value => ?_
      exact (ih fun q hq => texts q (by simp [hq])).bind fun values => spares_pure _

end Op

theorem Heap.payloadAt_of_project? {heap : Heap} {ref : Ref} {content : Project Ref}
    (h : heap.project? ref = some content) :
    heap.payloadAt ref.number = some (.project content) :=
  Heap.project?_eq_some_iff.mp h

/-! ### Making what is listed -/

section Creation

variable {s t : State} {e : Failure} {h : Handle} {self : Ref} {p : Payload} {method : String}
  {item : InterfaceId}

theorem Payload.Makes.registered (makes : p.Makes method item) (sound : s.Sound)
    (hb : s.handles.bound? h = some self) (hp : s.heap.payloadAt self.number = some p) :
    s.Registered := by
  have holds := sound.holds_bound hb
  have fits := sound.heap.fits_of_holds holds.has hp
  refine sound.registered holds.has ?_
  cases makes <;> rw [fits.1] <;> rfl

/-- A refused request has changed no payload. -/
theorem State.Refused.payloadAt_eq (sound : s.Sound) (refused : s.Refused e t) (n : Nat) :
    t.heap.payloadAt n = s.heap.payloadAt n := by
  obtain ⟨_, share_eq⟩ := sound.table.counts_of_bound_eq refused.sound.table refused.bound
  exact sound.heap.payload_eq refused.sound.heap refused.kept share_eq n

/-- The methods that make objects take texts. -/
theorem Payload.Makes.declared {id : InterfaceId} {d : InterfaceDescriptor} {m : Method}
    (makes : p.Makes method item) (fits : p.Fits (.interface id))
    (hd : TaskModel.registry.interface? id = some d) (hm : d.method? method = some m) :
    m.returns = .interface item ∧ ∀ q ∈ m.parameters, q.ty = .string := by
  cases makes with
  | project content =>
    cases fits.1
    cases hd
    cases hm
    simp
  | manager content =>
    cases fits.1
    cases hd
    cases hm
    simp

namespace Op

variable {after : State → Prop}

theorem callMethod_creates (sound : s.Sound) (hb : s.handles.bound? h = some self)
    (hp : s.heap.payloadAt self.number = some p) (makes : p.Makes method item)
    (arguments : List Value) :
    (callMethod self method arguments).Meets s
      (fun value t => ∃ ref, value = .object ref ∧
        s.Enlists self p.listing (.interface item) ref t)
      fun e t => e.toFault.code = .handleLimit → after t := by
  refine (payload_finds (sound.holds_bound hb)).bind_spared (payload_spares self) fun q hq => ?_
  cases hp.symm.trans hq
  cases makes with
  | project content =>
    refine meets_get ?_
    refine (text_finds arguments 0).bind_spared (spares_consent _) fun title _ => ?_
    refine (text_finds arguments 1).bind_spared (spares_consent _) fun description _ => ?_
    refine (Project.createTask_meets sound hb hp title description ?_).bind
      fun ref t enlists => meets_pure ⟨ref, rfl, enlists⟩
    intro limit
    cases limit
  | manager content =>
    refine meets_get ?_
    refine (text_finds arguments 0).bind_spared (spares_consent _) fun name _ => ?_
    refine (Manager.createProject_meets sound hb hp name ?_).bind
      fun ref t enlists => meets_pure ⟨ref, rfl, enlists⟩
    intro limit
    cases limit

/-- When a method that makes an object fails for want of a handle, the object has been listed. -/
theorem invoke_creates (sound : s.Sound) (hb : s.handles.bound? h = some self)
    (hp : s.heap.payloadAt self.number = some p) (makes : p.Makes method item) (id : InterfaceId)
    (ws : List Wire) :
    (invoke h id method ws).Meets s (fun w u => ∃ t : State, t.Lent w u)
      fun e t => e.toFault.code = .handleLimit → s.Listed self p t := by
  have holds := sound.holds_bound hb
  have fits := sound.heap.fits_of_holds holds.has hp
  refine (target_finds h id).bind_spared (target_spares h id) fun (ref, d) ⟨hb', htag, hd⟩ => ?_
  cases hb.symm.trans hb'
  refine (declaredMethod_finds d method).bind_spared (declaredMethod_spares d method)
    fun m hm => ?_
  obtain ⟨returns_eq, texts⟩ :=
    makes.declared (htag ▸ fits) (sound.descriptor holds.has htag hd) hm
  simp only
  split
  · exact meets_fail_bind fun limit => by cases limit
  · refine (inboundArguments_finds sound ws m.parameters).bind_spared
      (inboundArguments_spares texts ws) fun arguments _ => ?_
    refine (callMethod_creates sound hb hp makes arguments).bind
      fun value t ⟨made, value_eq, enlists⟩ => ?_
    rw [value_eq, returns_eq]
    refine (outbound_object_meets enlists.advanced.sound enlists.holds enlists.tag_eq).imp
      (fun w u ⟨lent, _⟩ => ⟨t, lent⟩) fun e u ⟨refused, _⟩ _ => ⟨made, enlists.new, ?_⟩
    rw [refused.payloadAt_eq enlists.advanced.sound]
    exact enlists.listed

end Op

/-- The entry points of the methods that make objects. -/
theorem Binding.filter_makers :
    Binding.all.filter (TaskModel.makers.contains ·.member) =
      [⟨"IProject_CreateTask", .project, "CreateTask", .call [.handle, .handle] (some .handle)⟩,
        ⟨"ITaskManager_CreateProject", .manager, "CreateProject",
          .call [.handle] (some .handle)⟩] := by
  decide +kernel

theorem Binding.access_of_maker {b : Binding} (hb : b ∈ Binding.all)
    (maker : b.member ∈ TaskModel.makers) :
    ∃ parameters, b.access = .call parameters (some .handle) := by
  have listed : b ∈ Binding.all.filter (TaskModel.makers.contains ·.member) := by simp [hb, maker]
  rw [filter_makers] at listed
  simp only [List.mem_cons, List.not_mem_nil, or_false] at listed
  rcases listed with rfl | rfl <;> exact ⟨_, rfl⟩

theorem Payload.Makes.mem_makers (makes : p.Makes method item) : method ∈ TaskModel.makers := by
  cases makes <;> simp [TaskModel.makers]

theorem Binding.run_creates {b : Binding} (sound : s.Sound)
    (hb : s.handles.bound? h = some self) (hp : s.heap.payloadAt self.number = some p)
    (makes : p.Makes b.member item) (member : b ∈ Binding.all) (ws : List Wire) :
    (b.run h ws).Meets s (fun _ _ => True)
      fun e t => e.toFault.code = .handleLimit → s.Listed self p t := by
  obtain ⟨parameters, access_eq⟩ := access_of_maker member makes.mem_makers
  refine meets_run (makes.registered sound hb hp).run_taskIds ?_
  rw [access_eq]
  refine (invoke_creates sound hb hp makes _ ws).bind fun w u _ => ?_
  unfold expectKind
  split
  · exact meets_pure trivial
  · exact meets_fail_bind fun limit => by cases limit

theorem Call.body_creates (sound : s.Sound) (hb : s.handles.bound? h = some self)
    (hp : s.heap.payloadAt self.number = some p) (makes : p.Makes method item) {call : Call}
    (exported : call.Exported) (calls : call.Calls h method) :
    call.body.Meets s (fun _ _ => True)
      fun e t => e.toFault.code = .handleLimit → s.Listed self p t := by
  cases call with
  | invoke handle name arguments count wanted =>
    cases name with
    | text name =>
      obtain ⟨rfl, rfl⟩ := calls
      refine (interfaceOf_finds handle).bind_spared (interfaceOf_spares handle) fun id _ => ?_
      refine meets_run (run_pure s name) ?_
      refine (readArguments_finds arguments count).bind_spared
        (readArguments_spares arguments count) fun ws _ => ?_
      refine (invoke_creates sound hb hp makes id ws).bind fun w u ⟨t, lent⟩ => ?_
      exact (deliver_meets lent wanted).ok_imp fun _ _ _ => trivial
    | null | malformed => exact calls.elim
  | member b handle ws =>
    obtain ⟨rfl, rfl⟩ := calls
    refine (Binding.run_creates sound hb hp makes (mem_of_exported exported) ws).bind
      fun found t _ => ?_
    split <;> exact meets_pure trivial
  | _ => exact calls.elim

end Creation

namespace State

variable {s : State} {h : Handle} {self : Ref} {p : Payload} {method : String} {item : InterfaceId}
  {thread : Nat} {call : Call}

/-- After a call that was to make an object and failed, the list of the owner is as it was, unless
there was no handle left: then the object has been made and listed. -/
theorem failed_creation_lists (reachable : s.Reachable) (hb : s.handles.bound? h = some self)
    (hp : s.heap.payloadAt self.number = some p) (makes : p.Makes method item)
    (exported : call.Exported) (calls : call.Calls h method)
    (failed : ((s.perform thread call).2.lastErrors thread).code ≠ .none) :
    if ((s.perform thread call).2.lastErrors thread).code = .handleLimit then
      s.Listed self p (s.perform thread call).2
    else (s.perform thread call).2.heap.payloadAt self.number = some p := by
  have sound := reachable.sound
  have guarded_eq : s.perform thread call = s.guarded thread ⟨call.sentinel, []⟩ call.body := by
    cases call <;> first | rfl | exact calls.elim
  rw [guarded_eq] at failed ⊢
  have meets := Call.body_creates sound.countCall hb hp makes exported calls
  split
  · next limit =>
    rcases guarded_cases s thread ⟨call.sentinel, []⟩ call.body with
      ⟨a, t, hr, hg⟩ | ⟨e, t, hr, hg⟩
    · rw [hg] at failed
      exact absurd (congrArg LastError.code (lastErrors_setLastError_self t thread {})) failed
    · rw [hg] at limit ⊢
      have code_eq : e.toFault.code = .handleLimit :=
        (congrArg LastError.code (lastErrors_setLastError_self _ thread _)).symm.trans limit
      have listed : s.Listed self p t := meets.bad_of_run hr code_eq
      exact listed
  · next other =>
    have untouched := untouched_guarded sound (makes.registered sound hb hp) exported _ failed
      fun excuse => other excuse.2
    obtain ⟨object, found, payload_eq⟩ := Option.bind_eq_some_iff.mp hp
    have there := (List.getElem?_eq_some_iff.mp found).1
    rw [Heap.payloadAt, untouched.object_eq _ there]
    exact hp

/-- A task for which there is no handle left is on the list of its project all the same. -/
theorem unlent_task_listed :
    let title : Wire := .handle ⟨0x100000002⟩
    let s : State :=
      { performAll {} [(0, .createAs .project), (0, .createText (.text "x"))] with
        options := { maxLiveHandles := 2 } }
    let createTask : Binding :=
      ⟨"IProject_CreateTask", .project, "CreateTask", .call [.handle, .handle] (some .handle)⟩
    let t := (s.perform 0 (.member createTask ⟨0x100000001⟩ [title, title])).2
    (t.lastErrors 0).code = .handleLimit ∧
      ∃ content ref, s.heap.payloadAt 0 = some (.project content) ∧ content.tasks = [] ∧
        t.heap.payloadAt 0 = some (.project { content with tasks := [ref] }) := by
  intro title s createTask t
  let project : Ref := ⟨0, .interface TaskModel.ids.project⟩
  have facts : (t.lastErrors 0).code = .handleLimit ∧
      s.handles.bound? ⟨0x100000001⟩ = some project ∧
      (s.heap.project? project).map (·.tasks) = some [] := by
    decide +kernel
  obtain ⟨limit, hb, found⟩ := facts
  obtain ⟨content, hcontent, empty⟩ := Option.map_eq_some_iff.mp found
  have hp := Heap.payloadAt_of_project? hcontent
  have reachable : s.Reachable := by
    refine (Leads.refl.performAll fun call hcall => ?_).step (.surroundings _ _ _)
    simp only [List.mem_cons, List.not_mem_nil, or_false] at hcall
    rcases hcall with rfl | rfl
    · exact .of_symbol "IProject_Create" [] rfl
    · exact .of_symbol "idlbridge_string_create" [.text (.text "x")] rfl
  have exported : (Call.member createTask ⟨0x100000001⟩ [title, title]).Exported :=
    .of_symbol "IProject_CreateTask" [.handle _, .handle ⟨0x100000002⟩, .handle ⟨0x100000002⟩] rfl
  have listed := failed_creation_lists reachable hb hp (.project content) exported ⟨rfl, rfl⟩
    (by rw [limit]; decide)
  rw [if_pos limit] at listed
  obtain ⟨ref, _, hlisted⟩ := listed
  refine ⟨limit, content, ref, hp, empty, ?_⟩
  rwa [Payload.listing, empty] at hlisted

end State

end ObjectBoundary
