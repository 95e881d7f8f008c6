import ObjectBoundary.Proofs.Reachable

/-!
# Entry points and requests by name

A typed entry point does what the request by the name of its member does. On a live handle of its
interface both end in the same state, with the same last error, and what the one returns is what the
other writes to its output. The entry points that make, share and release objects agree with the
general ones in the same way.
-/

namespace ObjectBoundary

open Op State

namespace Binding

/-- The request by name that an entry point stands for. -/
def byName (b : Binding) (h : Handle) (ws : List Wire) : Call :=
  match b.access with
  | .get _ => .getProperty h (.text b.member) true
  | .set _ => .setProperty h (.text b.member) (ws.headD .void)
  | .call _ _ => .invoke h (.text b.member) (some ws) ws.length true

/-- What an entry point answers when the request by name gives an answer. -/
inductive Corresponds (b : Binding) : Answer → Answer → Prop where
  | result (kind : Kind) (w : Wire) (fixed : b.result? = some kind) (same : w.kind? = some kind) :
      Corresponds b ⟨.ofWire kind w, []⟩ ⟨.bool true, [w]⟩
  | done (written : List Wire) (fixed : b.result? = none) :
      Corresponds b ⟨.bool true, []⟩ ⟨.bool true, written⟩
  | failed : Corresponds b ⟨.sentinel (b.result?.getD .bool), []⟩ ⟨.bool false, []⟩

/-- How the bodies of the two calls end: in one state, with one failure or with answers that
correspond. -/
inductive Agree (b : Binding) :
    Except Failure Answer × State → Except Failure Answer × State → Prop where
  | ok {typed named : Answer} {t : State} (answers : b.Corresponds typed named) :
      Agree b (.ok typed, t) (.ok named, t)
  | error (e : Failure) (t : State) : Agree b (.error e, t) (.error e, t)

variable {s : State} {b : Binding} {h : Handle} {ref : Ref} {id : InterfaceId}

/-- The guard treats both calls alike. -/
theorem Agree.guarded {typed named : Op Answer}
    (agree : b.Agree (s.countCall.run typed) (s.countCall.run named)) (thread : Nat) :
    let first := s.guarded thread ⟨.sentinel (b.result?.getD .bool), []⟩ typed
    let second := s.guarded thread ⟨.bool false, []⟩ named
    b.Corresponds first.1 second.1 ∧ first.2 = second.2 := by
  unfold State.guarded
  generalize s.countCall.run typed = x at agree
  generalize s.countCall.run named = y at agree
  cases agree with
  | ok answers => exact ⟨answers, rfl⟩
  | error e t => exact ⟨.failed, rfl⟩

theorem run_interfaceOf (hb : s.handles.bound? h = some ref) (htag : ref.tag = .interface id) :
    s.run (interfaceOf h) = (.ok id, s) := by
  have resolved : s.handles.resolve h none = .ok ref :=
    HandleTable.resolve_eq_ok_iff.mpr ⟨hb, fun _ htag => by cases htag⟩
  unfold interfaceOf
  simp only [run_bind, run_resolve, resolved, htag, run_pure]

theorem run_readArguments (s : State) (ws : List Wire) :
    s.run (Call.readArguments (some ws) ws.length) = (.ok ws, s) := by
  cases ws with
  | nil => rfl
  | cons w ws => simp [Call.readArguments]

/-- What the getter of a property gives has the kind that the entry point fixes. -/
theorem kind_of_getProperty (sound : s.Sound) (registered : s.Registered) (member : b ∈ all)
    {kind : Kind} (access : b.access = .get kind) {w : Wire} {t : State}
    (hr : s.run (Op.getProperty h (b.role.id TaskModel.ids) b.member) = (.ok w, t)) :
    w.kind? = some kind := by
  have meets := getProperty_meets sound h (b.role.id TaskModel.ids) b.member
  obtain ⟨_, d, p, hd, hp, hkind⟩ := meets.ok_of_run hr
  have agreed := all_agree b member
  rw [registered.registry_eq] at hd hkind
  simp only [agrees, access, hd, Option.bind_some, hp, Option.all_some, decide_eq_true_eq]
    at agreed
  rw [hkind, agreed]

/-- What a method gives has the kind that the entry point fixes. -/
theorem kind_of_invoke (sound : s.Sound) (registered : s.Registered) (member : b ∈ all)
    {parameters : List Kind} {kind : Kind} (access : b.access = .call parameters (some kind))
    {ws : List Wire} {w : Wire} {t : State}
    (hr : s.run (Op.invoke h (b.role.id TaskModel.ids) b.member ws) = (.ok w, t)) :
    w.kind? = some kind := by
  have meets := invoke_meets sound h (b.role.id TaskModel.ids) b.member ws
  obtain ⟨_, d, m, hd, hm, hkind⟩ := meets.ok_of_run hr
  have agreed := all_agree b member
  rw [registered.registry_eq] at hd hkind
  simp only [agrees, access, hd, Option.bind_some, hm, Option.all_some, decide_eq_true_eq]
    at agreed
  rw [hkind, agreed]

/-- The bodies agree: each makes the same request of the same interface. -/
theorem body_agree (sound : s.Sound) (registered : s.Registered) (member : b ∈ all)
    (hb : s.handles.bound? h = some ref) (htag : ref.tag = .interface (b.role.id TaskModel.ids))
    (ws : List Wire) :
    b.Agree (s.run (Call.member b h ws).body) (s.run (b.byName h ws).body) := by
  have ids := registered.run_taskIds
  have asked := run_interfaceOf hb htag
  cases access : b.access with
  | get kind =>
    have fixed : b.result? = some kind := by simp only [result?, access]
    simp only [Call.body, run, byName, access, fixed, Call.requireOutput, run_bind, ids, asked,
      TextArgument.read, check, if_true, run_pure]
    cases hr : s.run (Op.getProperty h (b.role.id TaskModel.ids) b.member) with
    | mk found t =>
      cases found with
      | error e => exact .error e t
      | ok w =>
        have same := kind_of_getProperty sound registered member access hr
        simp only [expectKind_run same, run_pure]
        exact .ok (.result kind w fixed same)
  | set kind =>
    have fixed : b.result? = none := by simp only [result?, access]
    simp only [Call.body, Call.ofDone, run, byName, access, run_bind, ids, asked,
      TextArgument.read, check, run_pure]
    cases hr : s.run (Op.setProperty h (b.role.id TaskModel.ids) b.member (ws.headD .void)) with
    | mk found t =>
      cases found with
      | error e => exact .error e t
      | ok u => exact .ok (.done [] fixed)
  | call parameters result =>
    have arguments := run_readArguments s ws
    cases result with
    | none =>
      have fixed : b.result? = none := by simp only [result?, access]
      simp only [Call.body, Call.deliver, run, byName, access, run_bind, ids, asked, arguments,
        TextArgument.read, check, if_true, run_pure]
      cases hr : s.run (Op.invoke h (b.role.id TaskModel.ids) b.member ws) with
      | mk found t =>
        cases found with
        | error e => exact .error e t
        | ok w => exact .ok (.done [w] fixed)
    | some kind =>
      have fixed : b.result? = some kind := by simp only [result?, access]
      simp only [Call.body, Call.deliver, run, byName, access, fixed, run_bind, ids, asked,
        arguments, TextArgument.read, check, if_true, run_pure]
      cases hr : s.run (Op.invoke h (b.role.id TaskModel.ids) b.member ws) with
      | mk found t =>
        cases found with
        | error e => exact .error e t
        | ok w =>
          have same := kind_of_invoke sound registered member access hr
          simp only [expectKind_run same, run_pure]
          exact .ok (.result kind w fixed same)

end Binding

namespace Role

/-- The entry points of an interface, each found by its name and with the call that it makes. -/
structure Exported (role : Role) : Prop where
  member : ∀ b ∈ Binding.all, b.role = role → ∀ h arguments,
    Export.callOf? b.symbol (.handle h :: arguments) =
      some (.member b h (arguments.map Argument.toWire))
  create : Export.callOf? role.lifecycle.create [] = some (.createAs role)
  addRef : ∀ h, Export.callOf? role.lifecycle.addRef [.handle h] = some (.addRefAs role h)
  release : ∀ h, Export.callOf? role.lifecycle.release [.handle h] = some (.releaseAs role h)

theorem exported (role : Role) : role.Exported := by
  have calls : ∀ entry ∈ Export.ofRole role, ∀ arguments,
      Export.callOf? entry.symbol arguments = entry.call arguments :=
    fun entry member => Export.callOf?_symbol (Export.mem_all_of_ofRole member)
  simp only [Export.ofRole, List.forall_mem_cons] at calls
  obtain ⟨create, addRef, release, _⟩ := calls
  exact {
    member _ member _ _ _ := Export.callOf?_symbol (Export.ofBinding_mem_all member) _
    create := create []
    addRef h := addRef [.handle h]
    release h := release [.handle h] }

end Role

namespace State

variable {s : State} {h : Handle} {ref : Ref} {id : InterfaceId}

/-- A live handle of an interface is released alike with and without the expected tag. -/
theorem release_tag_eq (hb : s.handles.bound? h = some ref) (htag : ref.tag = .interface id) :
    s.handles.release h (some (.interface id)) = s.handles.release h none := by
  obtain ⟨slot, found⟩ := HandleTable.bound?_eq_some_iff.mp hb
  simp [HandleTable.release, found, HandleTable.checkTag, htag]

theorem run_release_tag (hb : s.handles.bound? h = some ref) (htag : ref.tag = .interface id) :
    s.run (Op.release h (some (.interface id))) = s.run (Op.release h none) := by
  rw [run_release, run_release, release_tag_eq hb htag]

theorem run_duplicate_tag (hb : s.handles.bound? h = some ref) (htag : ref.tag = .interface id) :
    s.run (Op.duplicate h (some (.interface id))) = s.run (Op.duplicate h none) := by
  have tagged : s.handles.resolve h (some (.interface id)) = .ok ref :=
    HandleTable.resolve_eq_ok_iff.mpr ⟨hb, fun tag same => by cases same; exact htag⟩
  have untagged : s.handles.resolve h none = .ok ref :=
    HandleTable.resolve_eq_ok_iff.mpr ⟨hb, fun _ same => by cases same⟩
  rw [run_duplicate, run_duplicate, tagged, untagged]

/-- The interfaces of the task model are found by their names. -/
theorem Registered.interfaceByName? (registered : s.Registered) (role : Role) :
    ∃ d, s.registry.interfaceByName? role.name = some d ∧ d.id = role.id TaskModel.ids := by
  rw [registered.registry_eq]
  cases role with
  | task => exact ⟨TaskModel.taskDescriptor, rfl, rfl⟩
  | project => exact ⟨TaskModel.projectDescriptor, rfl, rfl⟩
  | manager => exact ⟨TaskModel.managerDescriptor, rfl, rfl⟩

theorem perform_addRefAs (registered : s.Registered) (hb : s.handles.bound? h = some ref)
    {role : Role} (htag : ref.tag = .interface (role.id TaskModel.ids)) (thread : Nat) :
    s.perform thread (.addRefAs role h) = s.perform thread (.addRef h) := by
  have counted : s.countCall.Registered := registered.of_eq rfl rfl rfl
  have same : s.countCall.run (Call.addRefAs role h).body =
      s.countCall.run (Call.addRef h).body := by
    simp only [Call.body, Call.ofHandle, run_bind, counted.run_taskIds]
    rw [run_duplicate_tag (s := s.countCall) hb htag]
  simp only [perform, guarded, same, Call.sentinel]

theorem perform_releaseAs (registered : s.Registered) (hb : s.handles.bound? h = some ref)
    {role : Role} (htag : ref.tag = .interface (role.id TaskModel.ids)) (thread : Nat) :
    s.perform thread (.releaseAs role h) = s.perform thread (.release h) := by
  have counted : s.countCall.Registered := registered.of_eq rfl rfl rfl
  have same : s.countCall.run (Call.releaseAs role h).body =
      s.countCall.run (Call.release h).body := by
    simp only [Call.body, Call.ofDone, run_bind, counted.run_taskIds]
    rw [run_release_tag (s := s.countCall) hb htag]
  simp only [perform, guarded, same, Call.sentinel]

theorem perform_createAs (registered : s.Registered) (role : Role) (thread : Nat) :
    s.perform thread (.createAs role) = s.perform thread (.create (.text role.name)) := by
  have counted : s.countCall.Registered := registered.of_eq rfl rfl rfl
  obtain ⟨d, found, hid⟩ := counted.interfaceByName? role
  have same : s.countCall.run (Call.createAs role).body =
      s.countCall.run (Call.create (.text role.name)).body := by
    simp only [Call.body, Call.ofHandle, run_bind, counted.run_taskIds, TextArgument.read, check,
      run_pure, run_get, found, hid]
  simp only [perform, guarded, same, Call.sentinel]

theorem perform_byName (s : State) (b : Binding) (h : Handle) (ws : List Wire) (thread : Nat) :
    s.perform thread (b.byName h ws) = s.guarded thread ⟨.bool false, []⟩ (b.byName h ws).body := by
  unfold Binding.byName
  cases b.access with
  | get kind => rfl
  | set kind => rfl
  | call parameters result => rfl

/-- The entry points of an interface make the calls of the members and of the life cycle, and typed
access is access by name. -/
theorem typed_access_agrees (reachable : s.Reachable) (thread : Nat) (role : Role) :
    role.Exported ∧
    (∀ h ref, s.handles.bound? h = some ref → ref.tag = .interface (role.id TaskModel.ids) →
      (∀ b ∈ Binding.all, b.role = role → ∀ ws,
        let typed := s.perform thread (.member b h ws)
        let named := s.perform thread (b.byName h ws)
        b.Corresponds typed.1 named.1 ∧ typed.2 = named.2) ∧
      s.perform thread (.addRefAs role h) = s.perform thread (.addRef h) ∧
      s.perform thread (.releaseAs role h) = s.perform thread (.release h)) ∧
    (s.taskIds.isSome →
      s.perform thread (.createAs role) = s.perform thread (.create (.text role.name))) := by
  have sound := reachable.sound
  refine ⟨role.exported, fun h ref hb htag => ?_, fun loaded => ?_⟩
  · have registered := sound.registered (sound.has hb) (by rw [htag]; rfl)
    refine ⟨fun b member hrole ws => ?_, perform_addRefAs registered hb htag thread,
      perform_releaseAs registered hb htag thread⟩
    subst hrole
    have agree := Binding.body_agree sound.countCall (registered.of_eq rfl rfl rfl) member hb htag
      ws
    rw [perform_byName]
    exact agree.guarded thread
  · rcases sound.model with registered | ⟨unregistered, _⟩
    · exact perform_createAs registered role thread
    · rw [unregistered.taskIds_eq] at loaded
      cases loaded

/-- A task that was completed refuses to be cancelled, in the same way by name and by entry
point. -/
theorem cancel_completed_agrees :
    let task : Handle := ⟨0x100000001⟩
    let complete : Binding := ⟨"ITask_Complete", .task, "Complete", .call [] none⟩
    let cancel : Binding := ⟨"ITask_Cancel", .task, "Cancel", .call [] none⟩
    let s := performAll {} [(0, .createAs .task), (0, .member complete task [])]
    let typed := s.perform 1 (.member cancel task [])
    let named := s.perform 1 (.invoke task (.text "Cancel") (some []) 0 true)
    (typed.2.lastErrors 1).code = .domainFailure ∧ typed.2 = named.2 ∧
      s.perform 1 (.createAs .project) = s.perform 1 (.create (.text "IProject")) := by
  intro task complete cancel s typed named
  have facts : (typed.2.lastErrors 1).code = .domainFailure ∧ s.taskIds.isSome ∧
      s.handles.bound? task = some ⟨0, .interface TaskModel.ids.task⟩ := by
    decide +kernel
  obtain ⟨refused, loaded, hb⟩ := facts
  have reachable : s.Reachable := by
    refine Leads.refl.performAll fun call hcall => ?_
    simp only [List.mem_cons, List.not_mem_nil, or_false] at hcall
    rcases hcall with rfl | rfl
    · exact .of_symbol "ITask_Create" [] rfl
    · exact .of_symbol "ITask_Complete" [.handle _] rfl
  have agrees := (typed_access_agrees reachable 1 .task).2.1 task _ hb rfl
  exact ⟨refused, (agrees.1 cancel (by decide +kernel) rfl []).2,
    (typed_access_agrees reachable 1 .project).2.2 loaded⟩

end State

end ObjectBoundary
