import ObjectBoundary.Proofs.Tasks.Methods

/-!
# Requests to members of objects

Reading and writing properties, calling methods and making objects of interfaces. All of these are
refused without a trace, with one exception: a new object that has been listed and then gets no
handle stays on the list.
-/

namespace ObjectBoundary

open Op State

variable {s : State}

/-- A request to a member has failed: it was refused, or it is one that makes an object and there
was no handle left for it. -/
def State.Excused (s : State) (member : String) (e : Failure) (t : State) : Prop :=
  s.Refused e t ∨
    member ∈ TaskModel.makers ∧ (∃ n, e = .fault (.handleLimit n)) ∧ s.Advanced t

namespace Op

theorem getProperty_meets (sound : s.Sound) (h : Handle) (id : InterfaceId) (name : String) :
    (getProperty h id name).Meets s
      (fun w t => s.Lent w t ∧ ∃ d p, s.registry.interface? id = some d ∧
        d.property? name = some p ∧ w.kind? = some (s.registry.kindOf p.ty)) s.Refused := by
  refine (target_finds h id).bind_refused sound fun (ref, d) ⟨hb, _, hd⟩ => ?_
  refine (declaredProperty_finds d name).bind_refused sound fun p hp => ?_
  refine (readProperty_finds sound (sound.holds_bound hb) name).bind_refused sound
    fun value carries => ?_
  exact (outbound_meets sound carries p.ty).ok_imp fun w t ⟨lent, kind⟩ =>
    ⟨lent, d, p, hd, hp, kind⟩

theorem setProperty_meets (sound : s.Sound) (h : Handle) (id : InterfaceId) (name : String)
    (w : Wire) : (setProperty h id name w).Meets s (fun _ t => s.Advanced t) s.Refused := by
  refine (target_finds h id).bind_refused sound fun (ref, d) ⟨hb, _, _⟩ => ?_
  refine (declaredProperty_finds d name).bind_refused sound fun p _ => ?_
  simp only
  split
  · exact meets_fail_bind (.refl sound rfl)
  · refine (inbound_finds sound w p.ty).bind_refused sound fun value _ => ?_
    exact writeProperty_meets sound (sound.holds_bound hb) name value

/-- What is left to do after a method: its result is handed out. -/
theorem outbound_settled {t : State} {method : String} {returns : Ty} {value : Value}
    (sound : s.Sound) (settles : s.Settles method returns value t) :
    (outbound value returns).Meets t
      (fun w u => (∃ v, s.Advanced v ∧ v.Lent w u) ∧ w.kind? = some (s.registry.kindOf returns))
      (s.Excused method) := by
  cases settles with
  | read same carries =>
    subst same
    exact (outbound_meets sound carries returns).imp
      (fun w u ⟨lent, kind⟩ => ⟨⟨t, .refl sound, lent⟩, kind⟩) fun e u refused => .inl refused
  | silent advanced returns_eq =>
    subst returns_eq
    exact meets_pure ⟨⟨t, advanced, .plain advanced.sound rfl⟩, rfl⟩
  | flag b advanced value_eq returns_eq =>
    subst value_eq returns_eq
    exact meets_pure ⟨⟨t, advanced, .plain advanced.sound rfl⟩, rfl⟩
  | made ref id maker advanced value_eq holds tag_eq returns_eq =>
    subst value_eq returns_eq
    exact (outbound_object_meets advanced.sound holds tag_eq).imp
      (fun w u ⟨lent, kind⟩ => ⟨⟨t, advanced, lent⟩, kind⟩)
      fun e u ⟨refused, limit⟩ => .inr ⟨maker, limit, advanced.trans refused.advanced⟩

theorem invoke_meets (sound : s.Sound) (h : Handle) (id : InterfaceId) (name : String)
    (ws : List Wire) :
    (invoke h id name ws).Meets s
      (fun w u => (∃ t, s.Advanced t ∧ t.Lent w u) ∧ ∃ d m, s.registry.interface? id = some d ∧
        d.method? name = some m ∧ w.kind? = some (s.registry.kindOf m.returns))
      (s.Excused name) := by
  have excused : ∀ e, e.toFault.namesObject = false → s.Excused name e s :=
    fun e unnamed => .inl (.refl sound unnamed)
  refine (target_finds h id).bind_meets excused fun (ref, d) ⟨hb, htag, hd⟩ => ?_
  refine (declaredMethod_finds d name).bind_meets excused fun m hm => ?_
  simp only
  split
  · exact meets_fail_bind (excused _ rfl)
  · refine (inboundArguments_finds sound ws m.parameters).bind_meets excused fun arguments _ => ?_
    refine ((callMethod_meets sound hb htag hd hm).imp (fun _ _ h => h)
      fun e t refused => .inl refused).bind fun value t settles => ?_
    exact (outbound_settled sound settles).ok_imp fun w u ⟨lent, kind⟩ => ⟨lent, d, m, hd, hm, kind⟩

/-! ### Making objects of interfaces -/

theorem lookup_factories {id : InterfaceId} {factory : Factory}
    (found : TaskModel.factories.lookup id = some factory) :
    id = TaskModel.ids.manager ∧ factory = .manager ∨
      id = TaskModel.ids.project ∧ factory = .project ∨
        id = TaskModel.ids.task ∧ factory = .task := by
  simp only [TaskModel.factories, List.lookup_cons] at found
  split at found
  · next hid => exact .inl ⟨by simpa using hid, by cases found; rfl⟩
  · split at found
    · next hid => exact .inr (.inl ⟨by simpa using hid, by cases found; rfl⟩)
    · split at found
      · next hid => exact .inr (.inr ⟨by simpa using hid, by cases found; rfl⟩)
      · cases found

theorem manufacture_meets {bad : Failure → State → Prop} {id : InterfaceId} {factory : Factory}
    (sound : s.Sound) (found : TaskModel.factories.lookup id = some factory) :
    (manufacture factory).Meets s
      (fun p t => t.Sound ∧ s.Quiet t ∧ p.Fits (.interface id) ∧ p.refs = []) bad := by
  have setting : ∀ t : State, t.heap = s.heap → t.handles = s.handles → s.SameSetting t →
      t.Sound ∧ s.Quiet t := by
    intro t heap handles setting
    exact ⟨sound.of_eq heap handles setting.registry_eq setting.factories_eq setting.taskIds_eq,
      heap ▸ Heap.Grown.refl _, handles, setting⟩
  rcases lookup_factories found with ⟨rfl, rfl⟩ | ⟨rfl, rfl⟩ | ⟨rfl, rfl⟩
  · exact meets_pure ⟨sound, Quiet.refl s, ⟨rfl, fun r hr => by cases hr⟩, rfl⟩
  · refine meets_run rfl (meets_pure ?_)
    obtain ⟨sound', quiet⟩ := setting { s with nextProject := s.nextProject + 1 } rfl rfl
      ⟨rfl, rfl, rfl, rfl, rfl, rfl, rfl, rfl⟩
    exact ⟨sound', quiet, ⟨rfl, fun r hr => by cases hr⟩, rfl⟩
  · refine meets_run rfl (meets_get (meets_pure ?_))
    obtain ⟨sound', quiet⟩ := setting { s with nextTask := s.nextTask + 1 } rfl rfl
      ⟨rfl, rfl, rfl, rfl, rfl, rfl, rfl, rfl⟩
    exact ⟨sound', quiet, rfl, rfl⟩

theorem construct_makes (sound : s.Sound) (id : InterfaceId) :
    (construct id).Meets s (s.Makes [] (.interface id)) s.Refused := by
  refine meets_get ?_
  rcases sound.model with registered | ⟨unregistered, _⟩
  · rw [registered.factories_eq]
    split
    · exact meets_invalid (.refl sound rfl)
    · next factory found =>
      refine (manufacture_meets sound found).bind fun p t ⟨sound', quiet, fits, plain⟩ => ?_
      have none : ∀ r ∈ p.refs, t.heap.Holds r := by simp [plain]
      exact (create_makes sound' (quiet.setting.registered registered) fits none).ok_imp
        fun ref u makes => makes.after_quiet quiet
  · rw [unregistered.factories_eq]
    exact meets_invalid (.refl sound rfl)

theorem createObject_meets (sound : s.Sound) (id : InterfaceId) :
    (createObject id).Meets s (fun h t => s.Lent (.handle h) t) s.Refused := by
  refine (construct_makes sound id).bind fun ref t makes => ?_
  exact (issue_meets makes.sound makes.holds).imp (fun h u lent => makes.quiet.lent lent)
    fun e u refused => makes.quiet.refused refused.1

end Op

end ObjectBoundary
