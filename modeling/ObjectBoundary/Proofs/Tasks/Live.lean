import ObjectBoundary.Proofs.Entry.Enumeration

/-!
# Live projects and managers

Making tasks and projects, listing them and taking them off the lists keeps a state sound. A whole
archive is restored without a step that could fail: once its text has been read, every object in it
is made, and the lists own them all.
-/

namespace ObjectBoundary

open Op State

variable {s t : State} {made : List Nat} {α : Type}

namespace State

/-- An object of a tag has been made, and there is no reference to it yet. -/
structure Makes (s : State) (made : List Nat) (tag : Tag) (ref : Ref) (t : State) : Prop where
  sound : t.SoundWith (ref.number :: made)
  quiet : s.Quiet t
  tag_eq : ref.tag = tag
  holds : t.heap.Holds ref

theorem Makes.after_quiet {tag : Tag} {ref : Ref} {u : State} (makes : t.Makes made tag ref u)
    (quiet : s.Quiet t) : s.Makes made tag ref u :=
  ⟨makes.sound, quiet.trans makes.quiet, makes.tag_eq, makes.holds⟩

theorem quiet_observeId (s : State) (id : String) : s.Quiet (s.observeId id) := by
  unfold observeId
  split
  · exact ⟨Heap.Grown.refl _, rfl, ⟨rfl, rfl, rfl, rfl, rfl, rfl, rfl, rfl⟩⟩
  · split
    · exact ⟨Heap.Grown.refl _, rfl, ⟨rfl, rfl, rfl, rfl, rfl, rfl, rfl, rfl⟩⟩
    · exact Quiet.refl s

theorem SoundWith.observeId (sound : s.SoundWith made) (id : String) :
    (s.observeId id).SoundWith made := by
  unfold State.observeId
  split
  · exact sound.of_eq rfl rfl rfl rfl rfl
  · split
    · exact sound.of_eq rfl rfl rfl rfl rfl
    · exact sound

end State

namespace Op

theorem create_makes {tag : Tag} {p : Payload} {bad : Failure → State → Prop}
    (sound : s.SoundWith made) (registered : s.Registered) (fits : p.Fits tag)
    (holds : ∀ r ∈ p.refs, s.heap.Holds r) :
    (create tag p).Meets s (s.Makes made tag) bad := by
  refine meets_of_run (run_create s tag p) ?_
  exact ⟨sound.withNew fits holds fun _ => registered, quiet_withNew s tag p, rfl,
    holds_withNew s tag p⟩

/-- Making objects one after another. -/
theorem mapM_makes {tag : Tag} {f : α → Op Ref} {bad : Failure → State → Prop}
    (each : ∀ a s made, s.Registered → s.SoundWith made → (f a).Meets s (s.Makes made tag) bad)
    (items : List α) (registered : s.Registered) (sound : s.SoundWith made) :
    (items.mapM f).Meets s
      (fun refs t => t.SoundWith (refs.map (·.number) ++ made) ∧ s.Quiet t ∧
        ∀ ref ∈ refs, ref.tag = tag ∧ t.heap.Holds ref) bad := by
  induction items generalizing s made with
  | nil => exact meets_pure ⟨sound, Quiet.refl s, fun _ hr => by cases hr⟩
  | cons item items ih =>
    rw [List.mapM_cons]
    refine (each item s made registered sound).bind fun ref t makes => ?_
    refine (ih (makes.quiet.setting.registered registered) makes.sound).bind fun refs u rest => ?_
    obtain ⟨sound', quiet, held⟩ := rest
    refine meets_pure ⟨?_, makes.quiet.trans quiet, ?_⟩
    · refine ⟨sound'.table, sound'.has, sound'.heap.settle fun n hn _ => .inl ?_, sound'.model⟩
      simp only [List.mem_append, List.mem_cons, List.map_cons] at hn ⊢
      rcases hn with hn | hn | hn
      · exact .inl (.inr hn)
      · exact .inl (.inl hn)
      · exact .inr hn
    · intro r hr
      rcases List.mem_cons.mp hr with rfl | hr
      · exact ⟨makes.tag_eq, makes.holds.grown quiet.grown⟩
      · exact held r hr

end Op

/-- A saved project becomes a live one with all its tasks. -/
theorem Project.restore_makes {bad : Failure → State → Prop} (p : Project Task)
    (registered : s.Registered) (sound : s.SoundWith made) :
    (Project.restore TaskModel.ids p).Meets s
      (s.Makes made (.interface TaskModel.ids.project)) bad := by
  have eachTask : ∀ (task : Task) s made, s.Registered → s.SoundWith made →
      (do modify (·.observeId task.id); newTask TaskModel.ids task : Op Ref).Meets s
        (s.Makes made (.interface TaskModel.ids.task)) bad := by
    intro task s made registered sound
    have quiet := quiet_observeId s task.id
    have fits : (Payload.task task).Fits (.interface TaskModel.ids.task) := rfl
    refine meets_modify ?_
    exact (create_makes (sound.observeId task.id) (quiet.setting.registered registered) fits
      fun r hr => by cases hr).ok_imp fun ref t makes => makes.after_quiet quiet
  refine (mapM_makes eachTask p.tasks registered sound).bind fun tasks t ⟨sound', quiet, held⟩ => ?_
  -- The new project owns the tasks, which were without references until now.
  let live : Payload := .project
    { id := p.id, name := p.name, description := p.description, active := p.active, tasks }
  let u := t.observeId p.id
  have observed := quiet_observeId t p.id
  have registered' : u.Registered := (quiet.trans observed).setting.registered registered
  have grown : ∀ r ∈ live.refs, u.heap.Holds r := fun r hr => (held r hr).2.grown observed.grown
  have fits : live.Fits (.interface TaskModel.ids.project) := ⟨rfl, fun r hr => (held r hr).1⟩
  have sound'' := (sound'.observeId p.id).withNew fits grown fun _ => registered'
  refine meets_modify (meets_of_run (run_create u _ live) ?_)
  refine ⟨sound''.settle_owned (payloadAt_withNew u _ live) ?_,
    (quiet.trans observed).trans (quiet_withNew u _ live), rfl, holds_withNew u _ live⟩
  intro n hn
  rcases List.mem_cons.mp hn with rfl | hn
  · exact .inl List.mem_cons_self
  · rcases List.mem_append.mp hn with hn | hn
    · obtain ⟨r, hr, rfl⟩ := List.mem_map.mp hn
      exact .inr ⟨r, hr, rfl⟩
    · exact .inl (List.mem_cons_of_mem _ hn)

/-! ### Lists that grow and shrink -/

section Lists

variable {h : Handle} {self : Ref} {bad : Failure → State → Prop}

/-- An object with a live handle lists everything that was just made. -/
theorem State.SoundWith.enlist {p : Payload} (sound : s.SoundWith made)
    (hb : s.handles.bound? h = some self) (fits : p.Fits self.tag)
    (refs : ∀ r ∈ p.refs, s.heap.Holds r) (owned : ∀ n ∈ made, ∃ r ∈ p.refs, r.number = n) :
    s.Advanced (s.withPayload self p) ∧ ∀ r ∈ p.refs, (s.withPayload self p).heap.Holds r := by
  have holds := sound.holds_bound hb
  have hp := sound.payloadAt_withPayload hb fits refs
  have later := Heap.Later.replace holds.alive p
  have placed := sound.withPayload holds fits refs
  refine ⟨⟨placed.settle_owned hp fun n hn => .inr (owned n hn), later⟩, fun r hr => ?_⟩
  exact ⟨(refs r hr).has.evolves later, placed.heap.alive_of_owned hp hr⟩

structure State.Enlists (s : State) (owner : Ref) (list : Ref → Payload) (tag : Tag) (ref : Ref)
    (t : State) : Prop where
  advanced : s.Advanced t
  holds : t.heap.Holds ref
  tag_eq : ref.tag = tag
  new : ref.number = s.heap.objects.length
  listed : t.heap.payloadAt owner.number = some (list ref)

/-- An object with a live handle lists a new one beside those that it had. -/
theorem Op.enlist_meets {tag : Tag} {new : Payload} {list : Ref → Payload} {old : List Ref}
    (sound : s.Sound)
    (registered : s.Registered) (hb : s.handles.bound? h = some self) (fitsNew : new.Fits tag)
    (plain : new.refs = []) (refs_eq : ∀ ref, (list ref).refs = old ++ [ref])
    (old_tag : ∀ r ∈ old, r.tag = tag) (old_holds : ∀ r ∈ old, s.heap.Holds r)
    (fits : ∀ ref, (∀ r ∈ old ++ [ref], r.tag = tag) → (list ref).Fits self.tag) :
    (create tag new >>= fun ref => replace self (list ref) >>= fun _ => pure ref).Meets s
      (s.Enlists self list tag) bad := by
  have none : ∀ r ∈ new.refs, s.heap.Holds r := by simp [plain]
  refine meets_run (run_create s tag new) ?_
  let ref : Ref := ⟨s.heap.objects.length, tag⟩
  let t := s.withNew tag new
  have makes : s.Makes [] tag ref t :=
    ⟨sound.withNew fitsNew none fun _ => registered, quiet_withNew s tag new, rfl,
      holds_withNew s tag new⟩
  refine meets_run (run_replace t self (list ref)) (meets_pure ?_)
  have listed : ref ∈ (list ref).refs := by simp [refs_eq]
  have cases : ∀ r ∈ old ++ [ref], r ∈ old ∨ r = ref := by simp
  have tagged : ∀ r ∈ old ++ [ref], r.tag = tag := by
    intro r hr
    rcases cases r hr with hold | rfl
    · exact old_tag r hold
    · exact makes.tag_eq
  have holds : ∀ r ∈ (list ref).refs, t.heap.Holds r := by
    intro r hr
    rcases cases r (refs_eq ref ▸ hr) with hold | rfl
    · exact (old_holds r hold).grown makes.quiet.grown
    · exact makes.holds
  have hb' : t.handles.bound? h = some self := hb
  obtain ⟨advanced, held⟩ := makes.sound.enlist hb' (fits ref tagged) holds
    fun n hn => ⟨ref, listed, (List.mem_singleton.mp hn).symm⟩
  exact ⟨⟨advanced.sound, makes.quiet.grown.kept.later.trans advanced.later⟩, held ref listed,
    makes.tag_eq, rfl, makes.sound.payloadAt_withPayload hb' (fits ref tagged) holds⟩

/-- An object that is still there lists less than before. -/
theorem Op.delist_meets {p p' : Payload} {b : Bool} (sound : s.Sound) (holds : s.heap.Holds self)
    (hp : s.heap.payloadAt self.number = some p) (fits : p'.Fits self.tag)
    (fewer : ∀ r ∈ p'.refs, r ∈ p.refs) :
    (replace self p' >>= fun _ => pure b).Meets s (fun _ t => s.Advanced t) bad := by
  have refs : ∀ r ∈ p'.refs, s.heap.Holds r :=
    fun r hr => sound.heap.holds_owned hp (fewer r hr)
  exact (replace_meets sound holds fits refs).bind fun _ _ advanced => meets_pure advanced

theorem Project.createTask_meets {p : Project Ref} (sound : s.Sound)
    (hb : s.handles.bound? h = some self)
    (hp : s.heap.payloadAt self.number = some (.project p)) (title description : String)
    (unnamed : bad (.fault (.domain .emptyTaskTitle)) s) :
    (p.createTask self title description).Meets s
      (s.Enlists self (fun ref => .project { p with tasks := p.tasks ++ [ref] })
        (.interface TaskModel.ids.task)) bad := by
  have holds := sound.holds_bound hb
  have fits := sound.heap.fits_of_holds holds.has hp
  have registered := sound.registered holds.has (by rw [fits.1]; rfl)
  unfold Project.createTask
  split
  · exact meets_fail_bind unnamed
  · refine meets_run registered.run_nativeIds (meets_run rfl (meets_get ?_))
    have sound' : ({ s with nextTask := s.nextTask + 1 } : State).Sound :=
      sound.of_eq rfl rfl rfl rfl rfl
    refine Meets.ok_imp (enlist_meets sound' (registered.of_eq rfl rfl rfl) hb rfl rfl
      (fun _ => rfl) fits.2 (fun r hr => sound.heap.holds_owned hp hr)
      fun _ tagged => ⟨fits.1, tagged⟩) ?_
    exact fun ref t enlists =>
      { enlists with advanced := ⟨enlists.advanced.sound, enlists.advanced.later⟩ }

theorem Project.deleteTask_meets {p : Project Ref} (sound : s.Sound) (holds : s.heap.Holds self)
    (hp : s.heap.payloadAt self.number = some (.project p)) (id : String) :
    (p.deleteTask self id).Meets s (fun _ t => s.Advanced t) bad := by
  have fits := sound.heap.fits_of_holds holds.has hp
  refine meets_get ?_
  split
  · exact delist_meets sound holds hp
      ⟨fits.1, fun r hr => fits.2 r (List.mem_of_mem_erase hr)⟩ fun _ => List.mem_of_mem_erase
  · exact meets_pure (.refl sound)

theorem Manager.createProject_meets {m : Manager Ref} (sound : s.Sound)
    (hb : s.handles.bound? h = some self)
    (hm : s.heap.payloadAt self.number = some (.manager m)) (name : String)
    (unnamed : bad (.fault (.domain .emptyProjectName)) s) :
    (m.createProject self name).Meets s
      (s.Enlists self (fun ref => .manager { m with projects := m.projects ++ [ref] })
        (.interface TaskModel.ids.project)) bad := by
  have holds := sound.holds_bound hb
  have fits := sound.heap.fits_of_holds holds.has hm
  have registered := sound.registered holds.has (by rw [fits.1]; rfl)
  unfold Manager.createProject
  split
  · exact meets_fail_bind unnamed
  · refine meets_run registered.run_nativeIds (meets_run rfl ?_)
    have sound' : ({ s with nextProject := s.nextProject + 1 } : State).Sound :=
      sound.of_eq rfl rfl rfl rfl rfl
    refine Meets.ok_imp (enlist_meets sound' (registered.of_eq rfl rfl rfl) hb
      ⟨rfl, fun r hr => by cases hr⟩ rfl (fun _ => rfl) fits.2
      (fun r hr => sound.heap.holds_owned hm hr) fun _ tagged => ⟨fits.1, tagged⟩) ?_
    exact fun ref t enlists =>
      { enlists with advanced := ⟨enlists.advanced.sound, enlists.advanced.later⟩ }

theorem Manager.deleteProject_meets {m : Manager Ref} (sound : s.Sound)
    (holds : s.heap.Holds self) (hm : s.heap.payloadAt self.number = some (.manager m))
    (id : String) : (m.deleteProject self id).Meets s (fun _ t => s.Advanced t) bad := by
  have fits := sound.heap.fits_of_holds holds.has hm
  refine meets_get ?_
  split
  · exact delist_meets sound holds hm
      ⟨fits.1, fun r hr => fits.2 r (List.mem_of_mem_erase hr)⟩ fun _ => List.mem_of_mem_erase
  · exact meets_pure (.refl sound)

theorem Manager.save_meets (sound : s.Sound) (m : Manager Ref) (path : String) :
    (m.save path).Meets s (fun _ t => s.Advanced t) s.Refused := by
  refine meets_get ?_
  split
  · exact meets_of_run (run_set s _) ⟨sound.of_eq rfl rfl rfl rfl rfl, Heap.Later.refl _⟩
  · exact meets_fail (.refl sound rfl)

theorem Manager.load_meets {m : Manager Ref} (sound : s.Sound)
    (hb : s.handles.bound? h = some self)
    (hm : s.heap.payloadAt self.number = some (.manager m)) (path : String) :
    (Manager.load self path).Meets s (fun _ t => s.Advanced t) s.Refused := by
  have holds := sound.holds_bound hb
  have fits := sound.heap.fits_of_holds holds.has hm
  have registered := sound.registered holds.has (by rw [fits.1]; rfl)
  refine meets_get ?_
  split
  · next text _ =>
    refine meets_run (run_pure s text) ?_
    refine (finds_consent fun _ _ => trivial).bind_refused sound fun archive _ => ?_
    refine meets_run registered.run_nativeIds ?_
    refine (mapM_makes (fun p s made registered sound => Project.restore_makes p registered sound)
      archive.projects registered sound).bind fun projects t ⟨sound', quiet, held⟩ => ?_
    let live : Payload := .manager { settings := archive.settings, projects }
    have fits' : live.Fits self.tag := ⟨fits.1, fun r hr => (held r hr).1⟩
    obtain ⟨advanced, _⟩ := sound'.enlist (quiet.handles_eq ▸ hb) fits'
      (fun r hr => (held r hr).2) fun n hn => by
        obtain ⟨r, hr, rfl⟩ := List.mem_map.mp (List.append_nil _ ▸ hn)
        exact ⟨r, hr, rfl⟩
    exact meets_of_run (run_replace t self live)
      ⟨advanced.sound, quiet.grown.kept.later.trans advanced.later⟩
  · exact meets_fail_bind (.refl sound rfl)

end Lists

end ObjectBoundary
