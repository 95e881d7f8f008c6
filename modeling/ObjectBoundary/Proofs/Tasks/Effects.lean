import ObjectBoundary.Proofs.Marshal.Effects
import ObjectBoundary.Proofs.Tasks.Compliance

/-!
# Implementations as moves

What the members of tasks, projects and managers do to objects. A method changes the object that it
is called on and no other one; what it lists it has just made, so that nothing gets on a second
list. One id at most is given out, and a file that is loaded brings its own, with due dates that
nobody checks.
-/

namespace ObjectBoundary

open Op State

/-- All texts in the files that can be loaded are clean. -/
def Files.Clean (files : Files) : Prop :=
  ∀ path text archive, files.read path = .ok text → Manager.parse path text = .ok archive →
    Archive.Clean archive

/-- A due date is in a file that can be loaded. -/
def Files.Brings (files : Files) (due : String) : Prop :=
  ∃ path text archive, files.read path = .ok text ∧ Manager.parse path text = .ok archive ∧
    ∃ saved ∈ archive.projects, ∃ task ∈ saved.tasks, task.dueDate = due

/-- A state in which an errand can be run: nothing is on two lists, and all texts and due dates are
as the errand says. -/
structure State.Fit (errand : Errand) (s : State) : Prop where
  sound : s.Sound
  forest : s.heap.Forest
  clean : errand.clean → s.heap.Clean
  files : errand.clean → errand.loads → s.files.Clean
  brings : ∀ due, s.files.Brings due → errand.brings due

variable {errand : Errand} {s t u : State} {self ref : Ref} {refs : List Ref} {p : Payload}

/-! ### Making an object and listing it -/

theorem State.clean_nextId (s : State) (kind : IdKind) : Text.Clean (s.nextId kind) := by
  have start : Text.Clean kind.start := by cases kind <;> simp [Text.Clean, IdKind.start]
  exact start.append (Text.clean_decimal _)

theorem Task.clean_fresh (s : State) {title description : String} (ht : Text.Clean title)
    (hd : Text.Clean description) :
    Clean { id := s.nextId .task, title, description, createdAt := Timestamp.text s.now } where
  id := s.clean_nextId .task
  title := ht
  description := hd
  createdAt := Timestamp.clean_text s.now
  dueDate := Text.clean_empty
  tags := by simp
  metadata := TextMap.clean_empty

theorem Task.dated_of_isDueDate {t : Task} (valid : IsDueDate t.dueDate) :
    (Payload.task t).Dated := by
  intro due found
  cases found
  exact valid

theorem Project.clean_fresh (s : State) {name : String} (hn : Text.Clean name) :
    Clean ({ id := s.nextId .project, name } : Project Ref) where
  id := s.clean_nextId .project
  name := hn
  description := Text.clean_empty

/-- The object that a request is about lists a new one beside those that it had. -/
theorem Op.enlist_alters (kind : IdKind) {tag : Tag} {new : Payload} {list : Ref → Payload}
    (forest : s.heap.Forest) (subject : errand.subject = some self.number)
    (old : s.heap.payloadAt self.number = some p) (generates : ¬ errand.loads)
    (identity : new.identity? = some (kind, s.nextId kind)) (childless : new.children = [])
    (clean : errand.clean → new.Clean) (dated : new.Dated)
    (list_identity : ∀ ref, (list ref).identity? = p.identity?)
    (list_children : ∀ ref, (list ref).children = p.children ++ [ref])
    (list_clean : errand.clean → ∀ ref, (list ref).Clean)
    (list_due : ∀ ref, (list ref).due? = p.due?) :
    (create tag new >>= fun ref => replace self (list ref) >>= fun _ => pure ref).Meets
      (s.draw kind) (fun _ t => s.Alters errand 1 t) fun _ t => s.Alters errand 1 t := by
  refine meets_run (run_create _ tag new) ?_
  have bears : s.Alters errand 1 ((s.draw kind).withNew tag new) :=
    (Move.bear kind tag identity childless clean generates dated).alters (.inr (Nat.le_refl 1))
  let made : State := (s.draw kind).withNew tag new
  have heap_eq : made.heap = (s.heap.create tag new).2 := by
    simp only [made, State.withNew, heap_draw]
  have old' : made.heap.payloadAt self.number = some p := by
    rw [heap_eq]
    exact (Heap.Grown.create s.heap tag new).payloadAt_eq old
  have there : (s.draw kind).heap.objects.length < made.heap.objects.length := by
    rw [heap_eq, heap_draw, Heap.length_create]
    omega
  have unlisted : made.heap.listed (s.draw kind).heap.objects.length = 0 := by
    rw [heap_eq, heap_draw, Heap.listed_create, childless,
      forest.there s.heap.objects.length (Nat.le_refl _)]
    rfl
  have listed : (replace self (list ⟨(s.draw kind).heap.objects.length, tag⟩)).Alters errand 0 made
      fun _ _ => True := by
    refine replace_alters subject old' (list_identity _) ?_ (fun h => list_clean h _)
      (.inl (list_due _)) fun text same => ?_
    · rw [list_children]
      refine Heap.relists_concat old' there unlisted fun ref member => ?_
      exact heap_draw s kind ▸ forest.lt_length old member
    · simpa [same, Payload.children] using list_children ⟨(s.draw kind).heap.objects.length, tag⟩
  exact (Meets.imp listed (fun _ _ h => bears.trans h.1 (Nat.le_refl 1))
    fun _ _ h => bears.trans h (Nat.le_refl 1)).bind fun _ _ h => meets_pure h

theorem Project.createTask_alters {p : Project Ref} (fit : s.Fit errand)
    (registered : s.Registered) (subject : errand.subject = some self.number)
    (old : s.heap.payloadAt self.number = some (.project p)) (generates : ¬ errand.loads)
    {title description : String}
    (clean : errand.clean → Text.Clean title ∧ Text.Clean description) :
    (p.createTask self title description).Alters errand 1 s fun _ _ => True := by
  unfold Project.createTask
  split
  · exact alters_fail_bind
  · refine meets_run registered.run_nativeIds (meets_run rfl (meets_get ?_))
    refine Meets.ok_imp (enlist_alters .task fit.forest subject old generates rfl rfl
      (fun h => ?_) (Task.dated_of_isDueDate (.inl rfl)) (fun _ => rfl) (fun _ => rfl)
      (fun h _ => ?_) fun _ => rfl) fun _ _ h => ⟨h, trivial⟩
    · exact Task.clean_fresh s (clean h).1 (clean h).2
    · have whole : p.Clean := fit.clean h _ _ old
      exact { whole with }

theorem Manager.createProject_alters {m : Manager Ref} (fit : s.Fit errand)
    (registered : s.Registered) (subject : errand.subject = some self.number)
    (old : s.heap.payloadAt self.number = some (.manager m)) (generates : ¬ errand.loads)
    {name : String} (clean : errand.clean → Text.Clean name) :
    (m.createProject self name).Alters errand 1 s fun _ _ => True := by
  unfold Manager.createProject
  split
  · exact alters_fail_bind
  · refine meets_run registered.run_nativeIds (meets_run rfl ?_)
    refine Meets.ok_imp (enlist_alters .project fit.forest subject old generates rfl rfl
      (fun h => ?_) (fun _ undue => by cases undue) (fun _ => rfl) (fun _ => rfl)
      (fun h _ => ?_) fun _ => rfl) fun _ _ h => ⟨h, trivial⟩
    · exact Project.clean_fresh s (clean h)
    · have whole : m.Clean := fit.clean h _ _ old
      exact whole

theorem Project.deleteTask_alters {p : Project Ref} (clean : errand.clean → s.heap.Clean)
    (subject : errand.subject = some self.number)
    (old : s.heap.payloadAt self.number = some (.project p)) (id : String) :
    (p.deleteTask self id).Alters errand 0 s fun _ _ => True := by
  refine alters_get ?_
  split
  · next ref _ _ =>
    have changed : (replace self (.project { p with tasks := p.tasks.erase ref })).Alters errand 0 s
        fun _ _ => True := by
      refine replace_alters subject old rfl (Heap.relists_erase p.tasks ref) (fun h => ?_)
        (.inl rfl) nofun
      have whole : p.Clean := clean h _ _ old
      exact { whole with }
    exact changed.bind fun _ _ _ _ => alters_pure trivial
  · exact alters_pure trivial

theorem Manager.deleteProject_alters {m : Manager Ref} (clean : errand.clean → s.heap.Clean)
    (subject : errand.subject = some self.number)
    (old : s.heap.payloadAt self.number = some (.manager m)) (id : String) :
    (m.deleteProject self id).Alters errand 0 s fun _ _ => True := by
  refine alters_get ?_
  split
  · next ref _ _ =>
    have changed : (replace self (.manager { m with projects := m.projects.erase ref })).Alters
        errand 0 s fun _ _ => True := by
      refine replace_alters subject old rfl (Heap.relists_erase m.projects ref) (fun h => ?_)
        (.inl rfl) nofun
      have whole : m.Clean := clean h _ _ old
      exact whole
    exact changed.bind fun _ _ _ _ => alters_pure trivial
  · exact alters_pure trivial

theorem Manager.save_alters (m : Manager Ref) (path : String) :
    (m.save path).Alters errand 0 s fun _ _ => True := by
  refine alters_get ?_
  split
  · exact alters_of_run (run_set s _) (alters_of_heap_eq rfl rfl rfl) trivial
  · exact alters_fail

/-! ### Restoring objects -/

/-- New objects have been made one after another that are on no list, and no old object got on
one. -/
structure State.Places (s : State) (refs : List Ref) (t : State) : Prop where
  grown : s.heap.Grown t.heap
  once : ∀ n, occurrences n refs ≤ 1
  new : ∀ ref ∈ refs, s.heap.objects.length ≤ ref.number ∧ ref.number < t.heap.objects.length
  unlisted : ∀ ref ∈ refs, t.heap.listed ref.number = 0
  old : ∀ n, n < s.heap.objects.length → t.heap.listed n = s.heap.listed n
  ordered : Chronological refs

namespace State.Places

theorem nil (s : State) : s.Places [] s :=
  ⟨Heap.Grown.refl _, fun _ => Nat.zero_le 1, by simp, by simp, fun _ _ => rfl, List.Pairwise.nil⟩

theorem not_occurs (places : s.Places refs t) {n : Nat} (small : n < s.heap.objects.length) :
    occurrences n refs = 0 := by
  rcases Nat.eq_zero_or_pos (occurrences n refs) with absent | present
  · exact absent
  · obtain ⟨ref, member, rfl⟩ := mem_of_occurrences_pos present
    have := (places.new ref member).1
    omega

theorem toUnlisted (places : s.Places refs t) : t.heap.Unlisted refs :=
  ⟨places.once, fun ref member => (places.new ref member).2, places.unlisted, places.ordered⟩

theorem cons (first : s.Places [ref] t) (rest : t.Places refs u) : s.Places (ref :: refs) u := by
  have there := (first.new ref List.mem_cons_self).2
  refine ⟨first.grown.trans rest.grown, fun n => ?_, fun r member => ?_, fun r member => ?_,
    fun n small => ?_, List.pairwise_cons.mpr ⟨fun r member => ?_, rest.ordered⟩⟩
  · rw [occurrences_cons]
    split
    · next same => rw [rest.not_occurs (same ▸ there)]
    · exact Nat.zero_add (occurrences n refs) ▸ rest.once n
  · rcases List.mem_cons.mp member with rfl | member
    · exact ⟨(first.new r List.mem_cons_self).1, Nat.lt_of_lt_of_le there rest.grown.length_le⟩
    · exact ⟨Nat.le_trans first.grown.length_le (rest.new r member).1, (rest.new r member).2⟩
  · rcases List.mem_cons.mp member with rfl | member
    · rw [rest.old r.number there]
      exact first.unlisted r List.mem_cons_self
    · exact rest.unlisted r member
  · rw [rest.old n (Nat.lt_of_lt_of_le small first.grown.length_le), first.old n small]
  · exact Nat.lt_of_lt_of_le there (rest.new r member).1

/-- A new object that lists new ones takes their place. -/
theorem restored (places : s.Places refs t) (forest : t.heap.Forest) (tag : Tag)
    (children : p.children = refs) (id : String) :
    s.Places [⟨t.heap.objects.length, tag⟩] ((t.observeId id).withNew tag p) := by
  have heap_eq : ((t.observeId id).withNew tag p).heap = (t.heap.create tag p).2 := by
    simp only [State.withNew, heap_observeId]
  have listed : ∀ n, ((t.observeId id).withNew tag p).heap.listed n =
      t.heap.listed n + occurrences n refs := by
    intro n
    rw [heap_eq, Heap.listed_create, children]
  refine ⟨?_, fun n => ?_, fun r member => ?_, fun r member => ?_, fun n small => ?_,
    List.pairwise_singleton _ _⟩
  · rw [heap_eq]
    exact places.grown.trans (Heap.Grown.create t.heap tag p)
  · rw [occurrences_cons, occurrences_nil]
    split <;> omega
  · rw [List.mem_singleton.mp member, heap_eq, Heap.length_create]
    exact ⟨places.grown.length_le, Nat.lt_succ_self _⟩
  · rw [List.mem_singleton.mp member, listed, forest.there _ (Nat.le_refl _),
      places.toUnlisted.occurrences_eq_zero (Nat.le_refl _)]
  · rw [listed, places.old n small, places.not_occurs small]
    rfl

end State.Places

/-- Restoring objects one after another. -/
theorem Op.mapM_places {α : Type} {f : α → Op Ref} (items : List α) (forest : s.heap.Forest)
    (each : ∀ a ∈ items, ∀ s : State, s.heap.Forest →
      (f a).Alters errand 0 s fun ref t => s.Places [ref] t) :
    (items.mapM f).Alters errand 0 s fun refs t => s.Places refs t := by
  induction items generalizing s with
  | nil => exact alters_pure (.nil s)
  | cons item items ih =>
    rw [List.mapM_cons]
    refine (each item List.mem_cons_self s forest).bind fun ref t alters first => ?_
    have rest := ih (alters.forest forest) fun a member =>
      each a (List.mem_cons_of_mem item member)
    exact rest.bind fun refs u _ places => alters_pure (first.cons places)

/-- An object is made of what is in a file. -/
theorem Op.restore_alters {tag : Tag} {kind : IdKind} {id : String} (places : s.Places refs t)
    (alters : s.Alters errand 0 t) (forest : t.heap.Forest) (loads : errand.loads)
    (identity : p.identity? = some (kind, id)) (children : p.children = refs)
    (clean : errand.clean → p.Clean) (brought : ∀ due, p.due? = some due → errand.brings due) :
    (do modify (·.observeId id); create tag p : Op Ref).Meets t
      (fun ref u => s.Alters errand 0 u ∧ s.Places [ref] u) fun _ u => s.Alters errand 0 u := by
  refine meets_modify (meets_of_run (run_create _ tag p) ⟨?_, ?_⟩)
  · have move : t.Move errand [(kind, id)] ((t.observeId id).withNew tag p) :=
      .restore tag identity (children ▸ places.toUnlisted) clean loads brought
    have restores : t.Alters errand 0 ((t.observeId id).withNew tag p) := move.alters (.inl loads)
    exact alters.trans restores (Nat.le_refl 0)
  · rw [heap_observeId]
    exact places.restored forest tag children id

theorem Project.restore_alters (ids : TaskIds) {saved : Project Task} (forest : s.heap.Forest)
    (loads : errand.loads)
    (clean : errand.clean → saved.Clean ∧ ∀ task ∈ saved.tasks, task.Clean)
    (brought : ∀ task ∈ saved.tasks, errand.brings task.dueDate) :
    (Project.restore ids saved).Alters errand 0 s fun ref t => s.Places [ref] t := by
  have eachTask : ∀ task ∈ saved.tasks, ∀ t : State, t.heap.Forest →
      (do modify (·.observeId task.id); newTask ids task : Op Ref).Alters errand 0 t
        fun ref u => t.Places [ref] u := by
    intro task member t forest
    refine Op.restore_alters (.nil t) (.refl t) forest loads rfl rfl
      (fun h => (clean h).2 task member) fun due found => ?_
    cases found
    exact brought task member
  refine Meets.bind (mapM_places saved.tasks forest eachTask) fun tasks t ⟨alters, places⟩ => ?_
  refine Op.restore_alters places alters (alters.forest forest) loads rfl rfl (fun h => ?_)
    fun _ undue => by cases undue
  exact { (clean h).1 with }

theorem Manager.load_alters {m : Manager Ref} (fit : s.Fit errand) (registered : s.Registered)
    (subject : errand.subject = some self.number)
    (old : s.heap.payloadAt self.number = some (.manager m)) (loads : errand.loads)
    (path : String) : (Manager.load self path).Alters errand 0 s fun _ _ => True := by
  refine alters_get ?_
  split
  · next text read =>
    refine alters_run (run_pure s text) (.refl s) ?_
    refine (finds_consent fun archive parsed => parsed).bind_alters fun archive parsed => ?_
    refine alters_run registered.run_nativeIds (.refl s) ?_
    have clean : errand.clean → Archive.Clean archive :=
      fun h => fit.files h loads path text archive read parsed
    have restored := mapM_places archive.projects fit.forest fun saved member t forest =>
      Project.restore_alters TaskModel.ids forest loads
        (fun h => ⟨(clean h).projects saved member, (clean h).tasks saved member⟩)
        fun task inside => fit.brings task.dueDate
          ⟨path, text, archive, read, parsed, saved, member, task, inside, rfl⟩
    refine restored.bind fun projects t _ places => ?_
    exact replace_alters subject (places.grown.payloadAt_eq old) rfl
      (places.toUnlisted.relists m.projects) (fun h => (clean h).settings) (.inl rfl) nofun
  · exact alters_fail_bind

/-! ### Members -/

variable {name : String} {arguments : List Value} {value : Value}

theorem Op.text_clean (given : errand.clean → ∀ value ∈ arguments, value.Clean) (index : Nat) :
    (consent do (← Value.argument arguments index).asText).Finds s
      fun text => errand.clean → Text.Clean text := by
  refine finds_consent fun text read h => ?_
  obtain ⟨value, found, read⟩ := bind_eq_ok_iff.mp read
  exact (given h value (Value.mem_of_argument found)).asText read

theorem Project.invoke_alters {p : Project Ref} (fit : s.Fit errand) (registered : s.Registered)
    (subject : errand.subject = some self.number)
    (old : s.heap.payloadAt self.number = some (.project p))
    (suits : errand.loads ↔ name = "Load")
    (given : errand.clean → ∀ value ∈ arguments, value.Clean) :
    (p.invoke self name arguments).Alters errand 1 s
      fun value _ => errand.clean → value.Clean := by
  have flat : ∀ value : Value, value.isTextual = false →
      (pure value : Op Value).Alters errand 1 s fun value _ => errand.clean → value.Clean :=
    fun value flat => alters_pure fun _ => .flat flat
  refine alters_get ?_
  split
  · -- CreateTask
    refine (text_clean given 0).bind_alters fun title ht => ?_
    refine (text_clean given 1).bind_alters fun description hd => ?_
    refine (createTask_alters fit registered subject old (by simp [suits]) fun h =>
      ⟨ht h, hd h⟩).bind_last fun _ _ _ _ => ?_
    exact alters_pure fun _ => .flat rfl
  · -- GetTask
    refine (text_clean given 0).bind_alters fun id _ => ?_
    split
    · exact flat _ rfl
    · exact alters_fail
  · -- GetTasks
    exact alters_pure fun _ => clean_objectArray _
  · -- GetTasksByStatus
    refine (finds_consent fun _ _ => trivial).bind_alters fun status _ => ?_
    exact alters_pure fun _ => clean_objectArray _
  · -- DeleteTask
    refine (text_clean given 0).bind_alters fun id _ => ?_
    refine (deleteTask_alters fit.clean subject old id).bind fun _ _ _ _ => ?_
    exact alters_pure fun _ => .flat rfl
  · exact flat _ rfl
  · exact flat _ rfl
  · -- GetTaskCountByStatus
    refine alters_pure fun _ => Value.clean_dict_iff.mpr fun entry member => ?_
    obtain ⟨status, _, rfl⟩ := List.mem_map.mp member
    exact ⟨.flat rfl, .flat rfl⟩
  · exact alters_fail

theorem Manager.invoke_alters {m : Manager Ref} (fit : s.Fit errand) (registered : s.Registered)
    (subject : errand.subject = some self.number)
    (old : s.heap.payloadAt self.number = some (.manager m))
    (suits : errand.loads ↔ name = "Load")
    (given : errand.clean → ∀ value ∈ arguments, value.Clean) :
    (m.invoke self name arguments).Alters errand 1 s
      fun value _ => errand.clean → value.Clean := by
  have void : ∀ t : State, (pure .void : Op Value).Alters errand 0 t
      fun value _ => errand.clean → value.Clean := fun _ => alters_pure fun _ => .flat rfl
  have objects : ∀ {α : Type} (items : List (Ref × α)),
      (pure (Project.objectArray items) : Op Value).Alters errand 1 s
        fun value _ => errand.clean → value.Clean :=
    fun items => alters_pure fun _ => Project.clean_objectArray items
  have whole : errand.clean → m.Clean := fun h => fit.clean h _ _ old
  refine alters_get ?_
  split
  · -- CreateProject
    refine (text_clean given 0).bind_alters fun name clean => ?_
    refine (createProject_alters fit registered subject old (by simp [suits]) clean).bind_last
      fun _ _ _ _ => ?_
    exact alters_pure fun _ => .flat rfl
  · -- GetProject
    refine (text_clean given 0).bind_alters fun id _ => ?_
    split
    · exact alters_pure fun _ => .flat rfl
    · exact alters_fail
  · exact objects _
  · exact objects _
  · -- DeleteProject
    refine (text_clean given 0).bind_alters fun id _ => ?_
    refine (deleteProject_alters fit.clean subject old id).bind fun _ _ _ _ => ?_
    exact alters_pure fun _ => .flat rfl
  · -- SearchTasks
    exact (text_clean given 0).bind_alters fun query _ => objects _
  · -- GetTasksByPriority
    exact (finds_consent fun _ _ => trivial).bind_alters fun priority _ => objects _
  · -- GetOverdueTasks
    exact alters_get (objects _)
  · -- GetAllTags
    exact alters_pure fun h => .set (Value.clean_texts (fit.clean h).allTags)
  · -- GetSettings
    exact alters_pure fun h => Value.clean_dictOf (whole h)
  · -- UpdateSettings
    refine (finds_consent fun updates read => read).bind_alters fun updates read => ?_
    have changed : (replace self (.manager { m with settings := m.settings.extend updates })).Alters
        errand 1 s fun _ _ => True := by
      refine replace_alters subject old rfl (Heap.relists_of_eq rfl) (fun h => ?_) (.inl rfl) nofun
      refine (whole h).extend (clean_textEntries read ?_)
      cases arguments with
      | nil => exact .flat rfl
      | cons first rest => exact given h first List.mem_cons_self
    exact changed.bind_last fun _ t _ _ => void t
  · -- Save
    refine (text_clean given 0).bind_alters fun path _ => ?_
    exact ((save_alters m path).mono (Nat.zero_le 1)).bind_last fun _ t _ _ => void t
  · -- Load
    refine (text_clean given 0).bind_alters fun path _ => ?_
    have loaded := load_alters fit registered subject old (suits.mpr rfl) path
    exact (loaded.mono (Nat.zero_le 1)).bind_last fun _ t _ _ => void t
  · exact alters_fail

/-! ### Requests to members of objects -/

/-- An object without an interface has no members. -/
theorem Op.notImplementation_alters {α : Type} {most : Nat} {wanted : α → State → Prop}
    (ref : Ref) :
    (notImplementation ref : Op α).Alters errand most s wanted := alters_get alters_fail

theorem Op.readProperty_clean (sound : s.Sound) (holds : s.heap.Holds self) (name : String) :
    (readProperty self name).Finds s fun value => s.heap.Clean → value.Clean := by
  refine (payload_finds holds).bind fun payload old => ?_
  cases payload with
  | task t => exact finds_consent fun _ read clean => Task.Clean.property (clean _ _ old) read
  | project q => exact finds_consent fun _ read clean => Project.Clean.property (clean _ _ old) read
  | manager q => exact finds_fail rfl
  | scripted content => cases sound.heap.fits_of_holds holds.has old
  | text content => exact finds_get (finds_fail rfl)
  | collection c => exact finds_get (finds_fail rfl)

theorem Op.writeProperty_alters (fit : s.Fit errand) (holds : s.heap.Holds self)
    (subject : errand.subject = some self.number) (name : String)
    (clean : errand.clean → value.Clean) :
    (writeProperty self name value).Alters errand 0 s fun _ _ => True := by
  refine (payload_finds holds).bind_alters fun payload old => ?_
  cases payload with
  | task t =>
    refine (finds_consent fun t' written => written).bind_alters fun t' written => ?_
    refine replace_alters subject old ?_ (Heap.relists_of_eq rfl) (fun h => ?_) ?_ nofun
    · simp only [Payload.identity?, Task.id_withProperty written]
    · have whole : t.Clean := fit.clean h _ _ old
      exact whole.withProperty (clean h) written
    · rcases Task.dueDate_withProperty written with same | valid
      · exact .inl (congrArg some same)
      · exact .inr (Task.dated_of_isDueDate valid)
  | project q =>
    refine (finds_consent fun q' written => written).bind_alters fun q' written => ?_
    have keeps := Project.withProperty_keeps written
    refine replace_alters subject old ?_ (Heap.relists_of_eq (Project.tasks_withProperty written))
      (fun h => keeps.2 (fit.clean h _ _ old) (clean h)) (.inl rfl) nofun
    simp only [Payload.identity?, keeps.1]
  | manager q => exact alters_fail
  | scripted content => cases fit.sound.heap.fits_of_holds holds.has old
  | text content => exact notImplementation_alters self
  | collection c => exact notImplementation_alters self

theorem Op.callMethod_alters (fit : s.Fit errand) (holds : s.heap.Holds self)
    (interface : self.tag.isInterface) (subject : errand.subject = some self.number)
    (suits : errand.loads ↔ name = "Load")
    (given : errand.clean → ∀ value ∈ arguments, value.Clean) :
    (callMethod self name arguments).Alters errand 1 s
      fun value _ => errand.clean → value.Clean := by
  have registered := fit.sound.registered holds.has interface
  refine (payload_finds holds).bind_alters fun payload old => ?_
  cases payload with
  | task t =>
    refine alters_get ((finds_consent fun found called => called).bind_alters ?_)
    rintro ⟨value, t'⟩ called
    obtain ⟨id_eq, due_eq, keeps⟩ := Task.invoke_keeps called
    have changed : (replace self (.task t')).Alters errand 1 s fun _ _ => True := by
      refine replace_alters subject old ?_ (Heap.relists_of_eq rfl) (fun h => ?_)
        (.inl (congrArg some due_eq)) nofun
      · simp only [Payload.identity?, id_eq]
      · exact (keeps (fit.clean h _ _ old) (given h)).2
    exact changed.bind_last fun _ _ _ _ =>
      alters_pure fun h => (keeps (fit.clean h _ _ old) (given h)).1
  | project q => exact Project.invoke_alters fit registered subject old suits given
  | manager q => exact Manager.invoke_alters fit registered subject old suits given
  | scripted content => cases fit.sound.heap.fits_of_holds holds.has old
  | text content => exact notImplementation_alters self
  | collection c => exact notImplementation_alters self

theorem Op.construct_alters (sound : s.Sound) (generates : ¬ errand.loads) (id : InterfaceId) :
    (construct id).Alters errand 1 s fun _ _ => True := by
  refine alters_get ?_
  split
  · exact alters_fail
  · next factory found =>
    have native : TaskModel.factories.lookup id = some factory := by
      rcases sound.model with registered | ⟨unregistered, _⟩
      · rwa [registered.factories_eq] at found
      · rw [unregistered.factories_eq] at found
        cases found
    rcases lookup_factories native with ⟨rfl, rfl⟩ | ⟨rfl, rfl⟩ | ⟨rfl, rfl⟩
    · have move : s.Move errand [] (s.withNew (.interface TaskModel.ids.manager) (.manager {})) :=
        .make _ rfl rfl (fun _ => TextMap.clean_empty) trivial
      exact alters_of_run rfl (move.alters (.inr (Nat.zero_le 1))) trivial
    · have move : s.Move errand [(.project, s.nextId .project)]
          ((s.draw .project).withNew (.interface TaskModel.ids.project)
            (.project { id := s.nextId .project, name := "" })) :=
        .bear .project _ rfl rfl (fun _ => Project.clean_fresh s Text.clean_empty) generates
          fun _ undue => by cases undue
      exact alters_of_run rfl (move.alters (.inr (Nat.le_refl 1))) trivial
    · have move : s.Move errand [(.task, s.nextId .task)]
          ((s.draw .task).withNew (.interface TaskModel.ids.task)
            (.task { id := s.nextId .task, title := "", createdAt := Timestamp.text s.now })) :=
        .bear .task _ rfl rfl (fun _ => Task.clean_fresh s Text.clean_empty Text.clean_empty)
          generates (Task.dated_of_isDueDate (.inl rfl))
      exact alters_of_run rfl (move.alters (.inr (Nat.le_refl 1))) trivial

theorem Op.createObject_alters (sound : s.Sound) (generates : ¬ errand.loads) (id : InterfaceId) :
    (createObject id).Alters errand 1 s fun _ _ => True :=
  (construct_alters sound generates id).bind_last fun ref _ _ _ => (issue_alters ref).trivial

end ObjectBoundary
