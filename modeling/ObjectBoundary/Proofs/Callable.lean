import ObjectBoundary.Proofs.Filling

/-!
# From an entry point to its method

An entry point of the task model finds the object behind its handle, reads its arguments, calls the
method that the interface declares, and writes the result. What the method does then decides the
call.
-/

namespace ObjectBoundary

open Op State

/-- A collection goes out as a sealed copy exactly when there is a handle for it. -/
theorem Op.outbound_handsOut {s : State} {value : Value} {ty : Ty} {c : Collection}
    (sound : s.Sound) (collection : (Collection.declared? ty).isSome)
    (copied : Collection.snapshot value ty = .ok c) (carries : s.heap.Carries c.refs) :
    HandsOut (outbound value ty) s .handle (.collection c) := by
  have checked : s.run (check (Collection.snapshot value ty)) = (.ok c, s) := by
    rw [run_check, copied]
    rfl
  have issued : HandsOut (do
      let c ← check (Collection.snapshot value ty)
      return Wire.handle (← issueCollection c)) s .handle (.collection c) :=
    meets_run checked ((issueCollection_handsOut sound carries).bind fun _ => rfl)
  cases ty with
  | array | dict | set => exact issued
  | _ => cases collection

namespace State

variable {s t : State} {b : Binding} {h : Handle} {ref : Ref} {m : Method} {ws : List Wire}
  {kinds : List Kind} {arguments : List Value} {value : Value} {c : Collection} {n : Int32}

/-- A live handle of an object whose interface declares the method of an entry point. -/
structure Callable (s : State) (b : Binding) (h : Handle) (ref : Ref) (m : Method) : Prop where
  sound : s.Sound
  bound : s.handles.bound? h = some ref
  tag_eq : ref.tag = .interface (b.role.id TaskModel.ids)
  declared : ∃ d, TaskModel.registry.interface? (b.role.id TaskModel.ids) = some d ∧
    d.method? b.member = some m

namespace Callable

theorem registered (callable : s.Callable b h ref m) : s.Registered :=
  callable.sound.registered (callable.sound.has callable.bound) (by rw [callable.tag_eq]; rfl)

/-- A request with the right number of arguments reads them and calls the method. -/
theorem run_invoke (callable : s.Callable b h ref m) (arity : ws.length = m.parameters.length) :
    s.run (Op.invoke h (b.role.id TaskModel.ids) b.member ws) =
      s.run (inboundArguments ws m.parameters >>= fun arguments =>
        callMethod ref b.member arguments >>= fun value => outbound value m.returns) := by
  obtain ⟨d, found, declared⟩ := callable.declared
  rw [← callable.registered.registry_eq] at found
  have known : s.run (declaredMethod d b.member) = (.ok m, s) := by
    rw [declaredMethod, declared]
    rfl
  rw [Op.invoke, run_bind, run_target callable.bound callable.tag_eq found]
  simp only [run_bind, known, arity, ne_eq, not_true, if_false]

/-- A method without a result has been called. -/
theorem run_done (callable : s.Callable b h ref m) (access : b.access = .call kinds none)
    (returns : m.returns = .void) (arity : ws.length = m.parameters.length)
    (read : s.run (inboundArguments ws m.parameters) = (.ok arguments, s))
    (called : s.run (callMethod ref b.member arguments) = (.ok .void, t)) :
    s.run (Call.member b h ws).body = (.ok ⟨.bool true, []⟩, t) := by
  have invoked : s.run (Op.invoke h (b.role.id TaskModel.ids) b.member ws) = (.ok .void, t) := by
    rw [callable.run_invoke arity, run_bind, read]
    dsimp only
    rw [run_bind, called, returns]
    rfl
  simp only [Call.body, Binding.run, access, run_bind, callable.registered.run_taskIds, invoked,
    run_pure]

/-- An argument that does not come in keeps the method from being called. -/
theorem run_refused (callable : s.Callable b h ref m) (access : b.access = .call kinds none)
    (arity : ws.length = m.parameters.length) {e : Failure}
    (refused : s.run (inboundArguments ws m.parameters) = (.error e, s)) :
    s.run (Call.member b h ws).body = (.error e, s) := by
  have invoked : s.run (Op.invoke h (b.role.id TaskModel.ids) b.member ws) = (.error e, s) := by
    rw [callable.run_invoke arity, run_bind, refused]
  simp only [Call.body, Binding.run, access, run_bind, callable.registered.run_taskIds, invoked]

/-- A method without arguments that gives a number. -/
theorem run_number (callable : s.Callable b h ref m) (access : b.access = .call kinds (some .i32))
    (returns : m.returns = .i32) (parameterless : m.parameters = [])
    (called : s.run (callMethod ref b.member []) = (.ok (.i32 n), s)) :
    s.run (Call.member b h []).body = (.ok ⟨.i32 n, []⟩, s) := by
  have invoked : s.run (Op.invoke h (b.role.id TaskModel.ids) b.member []) = (.ok (.i32 n), s) := by
    have given : s.run (inboundArguments [] m.parameters) = (.ok [], s) := by
      rw [parameterless]
      rfl
    rw [callable.run_invoke (by rw [parameterless]; rfl), run_bind, given]
    dsimp only
    rw [run_bind, called, returns]
    rfl
  have fixed : s.run (expectKind .i32 (.i32 n)) = (.ok (.i32 n), s) := rfl
  simp only [Call.body, Binding.run, Binding.result?, access, run_bind,
    callable.registered.run_taskIds, invoked, fixed, run_pure, Reply.ofWire, Wire.i32Bits_i32]

/-- A method that gives a collection gives a sealed copy of it exactly when there is a handle for
it. -/
theorem gives (callable : s.Callable b h ref m) (access : b.access = .call kinds (some .handle))
    (arity : ws.length = m.parameters.length)
    (read : s.run (inboundArguments ws m.parameters) = (.ok arguments, s))
    (called : s.run (callMethod ref b.member arguments) = (.ok value, s))
    (collection : (Collection.declared? m.returns).isSome)
    (copied : Collection.snapshot value m.returns = .ok c) (carries : s.heap.Carries c.refs) :
    HandsOut (Call.member b h ws).body s (fun g => ⟨.handle g, []⟩) (.collection c) := by
  have invoked : HandsOut (Op.invoke h (b.role.id TaskModel.ids) b.member ws) s .handle
      (.collection c) := by
    have given := outbound_handsOut callable.sound collection copied carries
    unfold HandsOut Meets at given ⊢
    rw [callable.run_invoke arity, run_bind, read]
    dsimp only
    rwa [run_bind, called]
  have fixed : b.result? = some .handle := by simp only [Binding.result?, access]
  have ran : HandsOut (b.run h ws) s (some ∘ Wire.handle) (.collection c) := by
    refine meets_run callable.registered.run_taskIds ?_
    rw [access]
    exact invoked.bind fun _ => rfl
  refine ran.bind fun _ => ?_
  rw [fixed]
  rfl

theorem ofManager {mgr : Manager Ref} (sound : s.Sound)
    (bound : s.handles.bound? h = some ref)
    (held : s.heap.payloadAt ref.number = some (.manager mgr)) (role : b.role = .manager)
    (declared : TaskModel.managerDescriptor.method? b.member = some m) :
    s.Callable b h ref m where
  sound := sound
  bound := bound
  tag_eq := by rw [role]; exact (sound.heap.fits_of_holds (sound.has bound) held).1
  declared := by rw [role]; exact ⟨_, rfl, declared⟩

theorem ofTask {task : Task} (sound : s.Sound) (bound : s.handles.bound? h = some ref)
    (held : s.heap.payloadAt ref.number = some (.task task)) (role : b.role = .task)
    (declared : TaskModel.taskDescriptor.method? b.member = some m) : s.Callable b h ref m where
  sound := sound
  bound := bound
  tag_eq := by rw [role]; exact sound.heap.fits_of_holds (sound.has bound) held
  declared := by rw [role]; exact ⟨_, rfl, declared⟩

theorem ofProject {p : Project Ref} (sound : s.Sound) (bound : s.handles.bound? h = some ref)
    (held : s.heap.payloadAt ref.number = some (.project p)) (role : b.role = .project)
    (declared : TaskModel.projectDescriptor.method? b.member = some m) :
    s.Callable b h ref m where
  sound := sound
  bound := bound
  tag_eq := by rw [role]; exact (sound.heap.fits_of_holds (sound.has bound) held).1
  declared := by rw [role]; exact ⟨_, rfl, declared⟩

end Callable

end State

end ObjectBoundary
