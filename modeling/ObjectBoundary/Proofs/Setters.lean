import ObjectBoundary.Proofs.Accounting
import ObjectBoundary.Proofs.Contents
import ObjectBoundary.Proofs.Fresh
import ObjectBoundary.Proofs.Readable
import ObjectBoundary.Proofs.Tasks.Updates

/-!
# What was set is read

After a setter has succeeded, the getter gives the content that was passed, behind a handle that was
never live before. The object differs in this one property, the argument stays as it was, and to set
what was read changes nothing.
-/

namespace ObjectBoundary

open Op State

namespace Role

def getter (role : Role) (p : Property) : Binding :=
  ⟨role.name ++ "_Get" ++ p.name, role, p.name, .get (TaskModel.registry.kindOf p.ty)⟩

def setter (role : Role) (p : Property) : Binding :=
  ⟨role.name ++ "_Set" ++ p.name, role, p.name, .set (TaskModel.registry.kindOf p.ty)⟩

/-- Every property that is not read only has its two entry points and a settable type. -/
theorem accessors : ∀ role ∈ all,
    ∀ d ∈ (TaskModel.registry.interface? (role.id TaskModel.ids)).toList, ∀ p ∈ d.properties,
      p.readOnly = false →
        role.setter p ∈ Binding.all ∧ role.getter p ∈ Binding.all ∧ p.ty.isSettable := by
  decide +kernel

theorem mem_all (role : Role) : role ∈ all := by cases role <;> decide

end Role

section Setters

variable {s : State} {h : Handle} {ref : Ref} {d : InterfaceDescriptor} {b : Binding}
  {kind : Kind} {property : Property} {p : Payload}

/-- A setter succeeds exactly when its argument says a value to which the object can be updated, and
then the object is so updated and nothing else happens. -/
theorem Call.setter_exact (sound : s.Sound) (access : b.access = .set kind)
    (hb : s.handles.bound? h = some ref)
    (htag : ref.tag = .interface (b.role.id TaskModel.ids))
    (hd : s.registry.interface? (b.role.id TaskModel.ids) = some d)
    (declared : d.property? b.member = some property) (writable : property.readOnly = false)
    (held : s.heap.payloadAt ref.number = some p) (w : Wire) :
    (Call.member b h [w]).body.Meets s
      (fun a t => a = ⟨.bool true, []⟩ ∧ ∃ value q, s.Says w property.ty value ∧
        p.Updated b.member value q ∧ t = s.withPayload ref q)
      fun _ _ => ∀ value q, s.Says w property.ty value → ¬ p.Updated b.member value q := by
  have registered := sound.registered (sound.has hb) (by rw [htag]; rfl)
  have fits := sound.heap.fits_of_holds (sound.has hb) held
  have found : s.run (declaredProperty d b.member) = (.ok property, s) := by
    rw [declaredProperty, declared]
    rfl
  have written : (Op.setProperty h (b.role.id TaskModel.ids) b.member w).Meets s
      (fun _ t => ∃ value q, s.Says w property.ty value ∧ p.Updated b.member value q ∧
        t = s.withPayload ref q)
      fun _ _ => ∀ value q, s.Says w property.ty value → ¬ p.Updated b.member value q := by
    refine meets_run (run_target hb htag hd) (meets_run found ?_)
    rw [writable]
    refine ((inbound_exact sound w property.ty).imp (fun _ _ made => made) fun e t failed value q
      said _ => failed.2 value said).bind ?_
    rintro value t ⟨rfl, said⟩
    refine (writeProperty_exact held fits).imp ?_ fun e u failed other q said' updated => ?_
    · rintro _ u ⟨q, updated, rfl⟩
      exact ⟨value, q, said, updated, rfl⟩
    · rw [said.unique said'] at updated
      exact failed q updated
  have ran : (b.run h [w]).Meets s
      (fun found t => found = none ∧ ∃ value q, s.Says w property.ty value ∧
        p.Updated b.member value q ∧ t = s.withPayload ref q)
      fun _ _ => ∀ value q, s.Says w property.ty value → ¬ p.Updated b.member value q := by
    refine meets_run registered.run_taskIds ?_
    rw [access]
    exact written.bind fun _ t made => meets_pure ⟨rfl, made⟩
  refine ran.bind ?_
  rintro found t ⟨rfl, made⟩
  exact meets_pure ⟨rfl, made⟩

end Setters

namespace State

variable {s t u : State} {role : Role} {p : Property} {h : Handle} {ref : Ref} {w : Wire}
  {value : Value} {before after : Payload}

/-- A live handle of a task or a project and one of its properties that can be set. -/
structure Editable (s : State) (role : Role) (p : Property) (h : Handle) (ref : Ref) : Prop where
  bound : s.handles.bound? h = some ref
  tag_eq : ref.tag = .interface (role.id TaskModel.ids)
  declared : ∃ d, s.registry.interface? (role.id TaskModel.ids) = some d ∧
    d.property? p.name = some p
  writable : p.readOnly = false

namespace Editable

theorem accessors (editable : s.Editable role p h ref) (sound : s.Sound) :
    role.setter p ∈ Binding.all ∧ role.getter p ∈ Binding.all ∧ p.ty.isSettable := by
  obtain ⟨d, found, declared⟩ := editable.declared
  have registered := sound.registered (sound.has editable.bound) (by rw [editable.tag_eq]; rfl)
  rw [registered.registry_eq] at found
  exact Role.accessors role role.mem_all d (by rw [found]; simp) p
    (List.mem_of_find?_eq_some declared) editable.writable

theorem kindOf_eq (editable : s.Editable role p h ref) (sound : s.Sound) :
    s.registry.kindOf p.ty = TaskModel.registry.kindOf p.ty := by
  have registered := sound.registered (sound.has editable.bound) (by rw [editable.tag_eq]; rfl)
  rw [registered.registry_eq]

theorem later (editable : s.Editable role p h ref) (bound : t.handles.bound? h = some ref)
    (registry_eq : t.registry = s.registry) : t.Editable role p h ref :=
  ⟨bound, editable.tag_eq, registry_eq ▸ editable.declared, editable.writable⟩

/-- What performing the setter comes to. -/
theorem set (editable : s.Editable role p h ref) (sound : s.Sound)
    (held : s.heap.payloadAt ref.number = some before) (thread : Nat) (w : Wire) :
    let set := s.perform thread (.member (role.setter p) h [w])
    (set.1.reply = .bool true ∧ ∃ value after, s.Says w p.ty value ∧
        before.Updated p.name value after ∧
        set.2 = (s.countCall.withPayload ref after).setLastError thread {}) ∨
      set.1.reply = .bool false ∧
        ∀ value after, s.Says w p.ty value → ¬ before.Updated p.name value after := by
  intro set
  obtain ⟨d, found, declared⟩ := editable.declared
  have exact := Call.setter_exact (b := role.setter p) sound.countCall rfl editable.bound
    editable.tag_eq found declared editable.writable held w
  rcases guarded_cases s thread ⟨.bool false, []⟩ (Call.member (role.setter p) h [w]).body with
    ⟨a, t, hr, hg⟩ | ⟨e, t, hr, hg⟩
  · obtain ⟨rfl, value, after, said, updated, rfl⟩ := exact.ok_of_run hr
    have same : set = _ := hg
    rw [same]
    exact .inl ⟨rfl, value, after, said, updated, rfl⟩
  · have same : set = _ := hg
    rw [same]
    exact .inr ⟨rfl, exact.bad_of_run hr⟩

/-- What performing the getter comes to when the value can be handed out. -/
theorem get (editable : s.Editable role p h ref) (sound : s.Sound)
    (held : s.heap.payloadAt ref.number = some before) (reads : before.Reads p.name value)
    (passable : value.Passable) (granted : s.Grants 1) (thread : Nat) :
    let got := s.perform thread (.member (role.getter p) h [])
    ∃ w t, got = (⟨.ofWire (s.registry.kindOf p.ty) w, []⟩, t.setLastError thread {}) ∧
      w.kind? = some (s.registry.kindOf p.ty) ∧ t.Shows s.heap.objects.length value w ∧
      s.countCall.Lent w t := by
  intro got
  have gives := Call.getter_gives sound.countCall (editable.accessors sound).2.1 rfl
    editable.bound editable.tag_eq (run_readProperty_of_reads held reads)
  have enough : s.countCall.Grants value.width := granted.mono value.width_le_one
  rcases guarded_cases s thread ⟨(Call.member (role.getter p) h []).sentinel, []⟩
    (Call.member (role.getter p) h []).body with ⟨a, t, hr, hg⟩ | ⟨e, t, hr, hg⟩
  · obtain ⟨_, _, w, rfl, kind_eq, shows, lent⟩ := gives.ok_of_run hr
    rw [editable.kindOf_eq sound]
    exact ⟨w, t, hg, kind_eq, shows, lent⟩
  · exact absurd ⟨passable, enough⟩ (gives.bad_of_run hr)

end Editable

/-- A live handle, the content of its object, and the number of references to it. -/
structure Backs (s : State) (h : Handle) (ref : Ref) (p : Payload) (count : Nat) : Prop where
  bound : s.handles.bound? h = some ref
  payload : s.heap.payloadAt ref.number = some p
  count_eq : s.heap.count ref = count

theorem Backs.later {g : Handle} {n : Nat} (backs : s.Backs g ref before n) (sound : s.Sound)
    (sound' : t.Sound) (plain : ref.tag.isInterface = false)
    (bound : t.handles.bound? g = some ref) (payload : t.heap.payloadAt ref.number = some before)
    (share_eq : t.handles.share ref.number = s.handles.share ref.number) :
    t.Backs g ref before n := by
  refine ⟨bound, payload, ?_⟩
  rw [sound'.count_eq_share (sound'.has bound) plain, share_eq,
    ← sound.count_eq_share (sound.has backs.bound) plain, backs.count_eq]

/-- The argument of a setter that takes a copy is a string or an array. -/
theorem Says.exists_backs {ty : Ty} {g : Handle} (settable : ty.isSettable)
    (said : s.Says w ty value) (handle : w.handle? = some g) :
    ∃ held q, s.Backs g held q (s.heap.count held) ∧ held.tag.isInterface = false := by
  obtain ⟨kind_eq, said⟩ := said
  unfold Wire.handle? at handle
  split at handle
  · next some_handle =>
    cases handle
    rw [some_handle] at kind_eq
    rcases Ty.settable_cases settable with rfl | rfl | rfl | ⟨id, rfl⟩
    · cases kind_eq
    · obtain ⟨held, text, points, tag_eq, _⟩ := said
      exact ⟨held, _, ⟨points.1, points.2, rfl⟩, by rw [tag_eq]; rfl⟩
    · obtain ⟨held, c, points, tag_eq, _⟩ := said
      exact ⟨held, _, ⟨points.1, points.2, rfl⟩, by rw [← Option.some.inj tag_eq]; rfl⟩
    · obtain ⟨n, d, _, found, _⟩ := said
      simp only [Registry.kindOf, found] at kind_eq
      cases backing : d.backing <;> rw [backing] at kind_eq <;> cases kind_eq
  · cases handle

/-- What is behind another handle stays when a task or a project is updated. -/
theorem Backs.withPayload {g : Handle} {held : Ref} {n : Nat} {q : Payload}
    (backs : s.Backs g held q n) (sound : s.Sound) (plain : held.tag.isInterface = false)
    {id : InterfaceId} (tag_eq : ref.tag = .interface id) (bound : s.handles.bound? h = some ref)
    (sound' : (s.withPayload ref after).Sound) : (s.withPayload ref after).Backs g held q n := by
  refine backs.later sound sound' plain backs.bound ?_ rfl
  have apart : ref.number ≠ held.number := by
    intro same
    have has := sound.has bound
    have has' := sound.has backs.bound
    unfold Heap.Has at has has'
    rw [same, has', Option.some.injEq] at has
    rw [has, tag_eq] at plain
    cases plain
  obtain ⟨p, alive⟩ := (sound.holds_bound bound).payload
  have placed := Heap.payloadAt_replace_of_alive (Heap.lt_length_of_payloadAt alive)
    (sound'.holds_bound (h := g) backs.bound).alive
  rw [if_neg apart] at placed
  exact placed.trans backs.payload

/-- The object has the new content after the setter. -/
theorem Editable.held_after (editable : s.Editable role p h ref) (sound : s.Sound)
    (held : s.heap.payloadAt ref.number = some before)
    (updated : before.Updated p.name value after) :
    (s.withPayload ref after).heap.payloadAt ref.number = some after := by
  have fits := sound.heap.fits_of_holds (sound.has editable.bound) held
  refine sound.payloadAt_withPayload editable.bound (updated.fits fits) fun r member => ?_
  rw [updated.refs_eq] at member
  exact sound.heap.holds_owned held member

/-- The getter after a setter that succeeded. -/
theorem Editable.get_after (editable : s.Editable role p h ref) (reachable : s.Reachable)
    (granted : s.Grants 1) (held : s.heap.payloadAt ref.number = some before)
    (said : s.Says w p.ty value) (updated : before.Updated p.name value after) {u : State}
    (sound' : u.Sound) {first : Nat}
    (set_eq : u = (s.countCall.withPayload ref after).setLastError first {}) (next : Nat) :
    ∃ w' t, u.perform next (.member (role.getter p) h []) =
        (⟨.ofWire (s.registry.kindOf p.ty) w', []⟩, t.setLastError next {}) ∧
      u.countCall.Lent w' t ∧ t.Says w' p.ty value ∧
      (Reply.ofWire (s.registry.kindOf p.ty) w').asArgument = w' ∧
      ∀ g r, w'.handle? = some g → t.handles.bound? g = some r →
        u.heap.objects.length ≤ r.number := by
  have sound := reachable.sound
  have settable := (editable.accessors sound).2.2
  have registry_eq : u.registry = s.registry := by rw [set_eq]; rfl
  have bound : u.handles.bound? h = some ref := by rw [set_eq]; exact editable.bound
  have held' : u.heap.payloadAt ref.number = some after := by
    rw [set_eq]
    exact editable.held_after sound held updated
  have granted' : u.Grants 1 := by rw [set_eq]; exact granted
  obtain ⟨w', t, got_eq, kind_eq, shows, lent⟩ := (editable.later bound registry_eq).get sound'
    held' updated.reads (said.passable reachable settable) granted' next
  have same : t.registry = s.registry := lent.setting.registry_eq.trans registry_eq
  have typed : t.registry.HasType p.ty value := same ▸ said.hasType
  rw [registry_eq] at got_eq kind_eq
  exact ⟨w', t, got_eq, lent, shows.says lent.sound settable typed (same ▸ kind_eq),
    shows.asArgument settable typed kind_eq,
    fun g r handle bound => shows.number_le settable typed handle bound⟩

/-- What the object can be updated to by the argument, it is updated to. -/
theorem Editable.set_of_updated (editable : s.Editable role p h ref) (sound : s.Sound)
    (held : s.heap.payloadAt ref.number = some before) (said : s.Says w p.ty value)
    (updated : before.Updated p.name value after) (thread : Nat) :
    let set := s.perform thread (.member (role.setter p) h [w])
    set.1.reply = .bool true ∧ set.2.heap.payloadAt ref.number = some after := by
  intro set
  rcases editable.set sound held thread w with
    ⟨replied, value', q, said', updated', set_eq⟩ | ⟨_, refused⟩
  · cases said.unique said'
    cases updated.unique updated'
    have set_eq : set.2 = _ := set_eq
    rw [set_eq]
    exact ⟨replied, editable.held_after sound held updated⟩
  · exact absurd updated (refused value after said)

/-- Whatever a getter gives, its handle was never live before. When a setter has succeeded, the
getter succeeds and gives the content of the argument; the object has changed in this property only,
and is as it was after setting what was read once more; the handle that was passed is live, its
object has the same content, and as many references lead to it. -/
theorem set_then_get (reachable : s.Reachable) :
    (∀ (thread : Nat) (b : Binding) (h g : Handle), b.access = .get .handle →
      let got := s.perform thread (.member b h [])
      (got.2.lastErrors thread).code = .none → got.1.reply = .handle g →
      s.Unheard g ∧ ∃ ref, got.2.handles.bound? g = some ref) ∧
    ∀ (role : Role) (p : Property) (h : Handle) (ref : Ref) (w : Wire) (first next last : Nat),
      s.Editable role p h ref → s.Grants 1 →
      let kind := s.registry.kindOf p.ty
      let set := s.perform first (.member (role.setter p) h [w])
      let got := set.2.perform next (.member (role.getter p) h [])
      let again := got.2.perform last (.member (role.setter p) h [got.1.reply.asArgument])
      role.setter p ∈ Binding.all ∧ role.getter p ∈ Binding.all ∧
      (set.1.reply = .bool true →
        (got.2.lastErrors next).code = .none ∧
        (∃ content, s.content? (.ofWire kind w) = some content ∧
          got.2.content? got.1.reply = some content) ∧
        (∃ before after, s.heap.payloadAt ref.number = some before ∧
          before.SameBut p.name after ∧ set.2.heap.payloadAt ref.number = some after ∧
          got.2.heap.payloadAt ref.number = some after ∧ again.1.reply = .bool true ∧
          again.2.heap.payloadAt ref.number = some after) ∧
        ∀ g, w.handle? = some g → ∃ held q n, s.Backs g held q n ∧ set.2.Backs g held q n ∧
          got.2.Backs g held q n) := by
  have sound := reachable.sound
  refine ⟨fun thread b h g access => getter_unheard reachable thread h access, ?_⟩
  intro role p h ref w first next last editable granted kind set got again
  obtain ⟨isSetter, isGetter, settable⟩ := editable.accessors sound
  refine ⟨isSetter, isGetter, fun succeeded => ?_⟩
  obtain ⟨before, held⟩ := (sound.holds_bound editable.bound).payload
  obtain ⟨_, value, after, said, updated, set_eq⟩ | ⟨failed, _⟩ := editable.set sound held first w
  case inr => cases failed.symm.trans succeeded
  have reached : set.2.Reachable :=
    reachable.step (.call first (Call.exported_member isSetter h [w]))
  have reached' : got.2.Reachable :=
    reached.step (.call next (Call.exported_member isGetter h []))
  obtain ⟨w', t, got_eq, lent, said', passed, new⟩ := editable.get_after reachable granted held
    said updated reached.sound set_eq next
  have got_eq : got = _ := got_eq
  have same : t.registry = s.registry := lent.setting.registry_eq.trans (by rw [set_eq]; rfl)
  have placed : set.2.heap.payloadAt ref.number = some after := by
    rw [set_eq]
    exact editable.held_after sound held updated
  have placed' : got.2.heap.payloadAt ref.number = some after := by
    rw [got_eq]
    exact lent.grown.payloadAt_eq placed
  have bound' : got.2.handles.bound? h = some ref := by
    rw [got_eq]
    refine lent.bound_of ?_
    rw [set_eq]
    exact editable.bound
  have editable' := editable.later bound' (by rw [got_eq]; exact same)
  have read : got.2.Says got.1.reply.asArgument p.ty value := by
    rw [got_eq]
    exact passed.symm ▸ said'
  refine ⟨by rw [got_eq, code_setLastError_clear], ⟨_, said.content? settable, ?_⟩,
    ⟨before, after, held, updated.sameBut, placed, placed',
      editable'.set_of_updated reached'.sound placed' read updated.again last⟩, fun g handle => ?_⟩
  · have content := said'.content? settable
    rw [same] at content
    rw [got_eq]
    exact content
  · obtain ⟨held, q, backs, plain⟩ := said.exists_backs settable handle
    have kept : set.2.Backs g held q (s.heap.count held) := by
      have sound' := reached.sound
      rw [set_eq] at sound' ⊢
      have updated' : (s.withPayload ref after).Sound := sound'.of_eq rfl rfl rfl rfl rfl
      have backs' := backs.withPayload sound plain editable.tag_eq editable.bound updated'
      exact ⟨backs'.bound, backs'.payload, backs'.count_eq⟩
    refine ⟨held, q, _, backs, kept, ?_⟩
    rw [got_eq] at reached' ⊢
    refine kept.later reached.sound reached'.sound plain (lent.bound_of kept.bound)
      (lent.grown.payloadAt_eq kept.payload)
      (lent.share_eq reached.sound.table fun k r handle bound => ?_)
    have old := Heap.lt_length_of_payloadAt kept.payload
    have := new k r handle bound
    omega

/-- A tag that is in the array twice is read twice, from another array. -/
theorem tags_set_then_got :
    let task : Handle := ⟨0x100000001⟩
    let word : Handle := ⟨0x100000002⟩
    let words : Handle := ⟨0x100000003⟩
    let tags : Property := { name := "tags", ty := .array .string, readOnly := false }
    let s := performAll {} [(0, .createAs .task), (0, .createText (.text "urgent")),
      (0, .newCollection .array), (0, .push words (.handle word)), (0, .push words (.handle word))]
    let set := s.perform 1 (.member (Role.task.setter tags) task [.handle words])
    let got := set.2.perform 2 (.member (Role.task.getter tags) task [])
    set.2.Unheard ⟨0x100000004⟩ ∧ (got.2.lastErrors 2).code = .none ∧
      got.1.reply = .handle ⟨0x100000004⟩ ∧
      got.2.content? (.handle ⟨0x100000004⟩) =
        some (.held (.array [.str "urgent", .str "urgent"])) := by
  dsimp only
  generalize built : performAll _ _ = s
  generalize stored : s.perform 1 _ = set
  generalize read : set.2.perform 2 _ = got
  have reachable : s.Reachable := by
    rw [← built]
    refine Leads.refl.performAll fun call hcall => ?_
    simp only [List.mem_cons, List.not_mem_nil, or_false] at hcall
    rcases hcall with rfl | rfl | rfl | rfl | rfl
    · exact .of_symbol "ITask_Create" [] rfl
    · exact .of_symbol "idlbridge_string_create" [.text _] rfl
    · exact .of_symbol "idlbridge_array_new" [] rfl
    · exact .of_symbol "idlbridge_array_push" [.handle _, .wire _] rfl
    · exact .of_symbol "idlbridge_array_push" [.handle _, .wire _] rfl
  have facts : set.1.reply = .bool true ∧ got.1.reply = .handle ⟨0x100000004⟩ ∧
      (1 ≤ s.handles.room ∧ s.options.maxLiveHandles = 0) ∧
      s.registry.kindOf (.array .string) = .handle ∧
      (s.registry.interface? TaskModel.ids.task).bind (·.property? "tags") =
        some ⟨"tags", .array .string, false⟩ ∧
      s.handles.bound? ⟨0x100000001⟩ = some ⟨0, .interface TaskModel.ids.task⟩ ∧
      s.handles.bound? ⟨0x100000003⟩ = some ⟨2, .array⟩ ∧
      (s.collection? ⟨2, .array⟩).map (·.toValue.same (.array [.str "urgent", .str "urgent"])) =
        some true := by
    subst built stored read
    decide +kernel
  obtain ⟨replied, answered, ⟨room, unlimited⟩, kind_eq, declared, bound, bound', whole⟩ := facts
  have editable : s.Editable .task ⟨"tags", .array .string, false⟩ ⟨0x100000001⟩
      ⟨0, .interface TaskModel.ids.task⟩ := ⟨bound, rfl, Option.bind_eq_some_iff.mp declared, rfl⟩
  obtain ⟨_, _, after⟩ := (set_then_get reachable).2 .task _ _ _ (.handle ⟨0x100000003⟩) 1 2 3
    editable (.inr ⟨room, .inl unlimited⟩)
  dsimp only at after
  rw [stored, read] at after
  obtain ⟨succeeded, ⟨content, given, found⟩, _⟩ := after replied
  obtain ⟨c, held, same⟩ := Option.map_eq_some_iff.mp whole
  have points : s.Points (.handle ⟨0x100000003⟩) ⟨2, .array⟩ (.collection c) :=
    ⟨bound', collection?_eq_some_iff.mp held⟩
  rw [kind_eq, points.content? (congrArg some ((Value.same_iff_eq _ _).mp same))] at given
  cases given
  have reached : set.2.Reachable := by
    rw [← stored]
    exact reachable.step (.call 1 (.of_symbol "ITask_Settags" [.handle _, .handle _] rfl))
  have unheard := ((set_then_get reached).1 2 _ ⟨0x100000001⟩ ⟨0x100000004⟩ rfl (by rwa [read])
    (by rwa [read])).1
  rw [answered] at found
  exact ⟨unheard, succeeded, answered, found⟩

end State

end ObjectBoundary
