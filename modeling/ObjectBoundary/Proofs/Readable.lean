import ObjectBoundary.Proofs.Entry.Agreement
import ObjectBoundary.Proofs.Entry.Compliance
import ObjectBoundary.Proofs.Entry.Effects
import ObjectBoundary.Proofs.Marshal.Delivery
import ObjectBoundary.Proofs.Persistence

/-!
# Reading what is stored

Properties, tags, items and entries can be read as long as there is room for handles, apart from
texts with a NUL: these are refused, and a cursor that meets one stays on it. No call can bring such
a text in but one that loads a file that holds it.
-/

namespace ObjectBoundary

open Op State

/-! ### Calls that tell something -/

namespace State

variable {s t : State} {thread n : Nat} {call : Call} {answer : List Wire → Answer}
  {values : List Value} {P : Prop}

/-- A call succeeds, and its answer is made of boundary values that stand for the given values. -/
def Tells (s : State) (thread : Nat) (call : Call) (answer : List Wire → Answer)
    (values : List Value) : Prop :=
  let done := s.perform thread call
  (done.2.lastErrors thread).code = .none ∧
    ∃ ws, done.1 = answer ws ∧ List.Forall₂ (done.2.Shows s.heap.objects.length) values ws

/-- A call that succeeds exactly under a condition, and tells the values then. -/
theorem tells_iff (passes : s.perform thread call = s.guarded thread ⟨call.sentinel, []⟩ call.body)
    (decides : call.body.Meets s.countCall
      (fun a t => P ∧ ∃ ws, a = answer ws ∧
        List.Forall₂ (t.Shows s.heap.objects.length) values ws) fun _ _ => ¬ P) :
    s.Tells thread call answer values ↔ P := by
  unfold Tells
  rw [passes]
  rcases guarded_cases s thread ⟨call.sentinel, []⟩ call.body with
    ⟨a, t, hr, hg⟩ | ⟨e, t, hr, hg⟩
  · obtain ⟨holds, told⟩ := decides.ok_of_run hr
    rw [hg]
    exact ⟨fun _ => holds, fun _ => ⟨code_setLastError_clear t thread, told⟩⟩
  · have fails : ¬ P := decides.bad_of_run hr
    rw [hg]
    exact ⟨fun told => absurd told.1 (code_recordFailure_ne_none t thread e),
      fun holds => absurd holds fails⟩

end State

/-! ### Properties and tags -/

section Members

variable {s : State} {h : Handle} {ref : Ref} {n : Nat}

theorem Answers.exists_ok {α : Type} {x : Except Refusal α} {wanted : α → Prop}
    (answers : Answers x wanted)
    (blames : ∀ cause, x = .error cause → (Fault.domain cause).isIllTyped = true) :
    ∃ a, x = .ok a ∧ wanted a := by
  cases x with
  | ok a => exact ⟨a, rfl, answers⟩
  | error cause =>
    have fair : (Fault.domain cause).isIllTyped = false := answers
    rw [blames cause rfl] at fair
    cases fair

theorem Task.property_refused {t : Task} {name : String} {cause : Refusal}
    (h : t.property name = .error cause) : (Fault.domain cause).isIllTyped = true := by
  unfold property at h
  split at h <;> cases h
  rfl

theorem Project.property_refused {τ : Type} {p : Project τ} {name : String} {cause : Refusal}
    (h : p.property name = .error cause) : (Fault.domain cause).isIllTyped = true := by
  unfold property at h
  split at h <;> cases h
  rfl

/-- A declared property has a value of its type, which depends on the objects alone. -/
theorem Op.run_readProperty {id : InterfaceId} {d : InterfaceDescriptor} {name : String}
    {p : Property} (sound : s.Sound) (hb : s.handles.bound? h = some ref)
    (htag : ref.tag = .interface id) (hd : s.registry.interface? id = some d)
    (declared : d.property? name = some p) :
    ∃ value, s.registry.HasType p.ty value ∧
      ∀ t : State, t.heap = s.heap → t.run (readProperty ref name) = (.ok value, t) := by
  have holds := sound.holds_bound hb
  obtain ⟨payload, hp⟩ := holds.payload
  obtain ⟨registry_eq, implements⟩ := sound.implements holds.has hp htag hd
  rw [registry_eq]
  cases implements with
  | task task =>
    obtain ⟨value, found, typed⟩ :=
      (Task.property_answers (t := task) declared).exists_ok fun _ h => Task.property_refused h
    refine ⟨value, typed, fun t heap_eq => ?_⟩
    simp only [readProperty, run_bind, run_payload (heap_eq ▸ hp), found]
    rfl
  | project q =>
    obtain ⟨value, found, typed⟩ :=
      (Project.property_answers (q := q) declared).exists_ok fun _ h => Project.property_refused h
    refine ⟨value, typed, fun t heap_eq => ?_⟩
    simp only [readProperty, run_bind, run_payload (heap_eq ▸ hp), found]
    rfl
  | manager q => cases declared

theorem Binding.exists_property {b : Binding} {kind : Kind} (registered : s.Registered)
    (member : b ∈ all) (access : b.access = .get kind) :
    ∃ d p, s.registry.interface? (b.role.id TaskModel.ids) = some d ∧
      d.property? b.member = some p := by
  rw [registered.registry_eq]
  obtain ⟨d, hd⟩ : ∃ d, TaskModel.registry.interface? (b.role.id TaskModel.ids) = some d := by
    cases b.role <;> exact ⟨_, rfl⟩
  obtain ⟨p, declared⟩ := declares_get member hd access
  exact ⟨d, p, hd, declared⟩

/-- A getter answers with the value of its property exactly when the value is passable and there is
a handle for it. -/
theorem Call.getter_gives {b : Binding} {kind : Kind} {value : Value} (sound : s.Sound)
    (member : b ∈ Binding.all) (access : b.access = .get kind) (hb : s.handles.bound? h = some ref)
    (htag : ref.tag = .interface (b.role.id TaskModel.ids))
    (read : s.run (readProperty ref b.member) = (.ok value, s)) :
    (Call.member b h []).body.Meets s
      (fun a t => (value.Passable ∧ s.Grants value.width) ∧ s.Spends value.width t ∧
        ∃ w, a = ⟨.ofWire kind w, []⟩ ∧ w.kind? = some kind ∧
          t.Shows s.heap.objects.length value w ∧ s.Lent w t)
      fun _ _ => ¬ (value.Passable ∧ s.Grants value.width) := by
  have registered := sound.registered (sound.has hb) (by rw [htag]; rfl)
  obtain ⟨d, p, hd, declared⟩ := Binding.exists_property registered member access
  obtain ⟨value', typed, read'⟩ := run_readProperty sound hb htag hd declared
  cases read.symm.trans (read' s rfl)
  have found : s.run (declaredProperty d b.member) = (.ok p, s) := by
    rw [declaredProperty, declared]
    rfl
  have carries := ((readProperty_finds sound (sound.holds_bound hb) b.member).ok_of_run read).2
  have fitting : ∀ ty, some p.ty = some ty → s.registry.HasType ty value := by
    rintro _ ⟨⟩
    exact typed
  have handed : (Op.getProperty h (b.role.id TaskModel.ids) b.member).Meets s _ _ :=
    meets_run (run_target hb htag hd) (meets_run found (meets_run read
      (outboundAs_lends sound carries fitting)))
  have kinds : (Op.getProperty h (b.role.id TaskModel.ids) b.member).Meets s
      (fun w _ => w.kind? = some kind) fun _ _ => True := by
    unfold Meets
    cases hr : s.run (Op.getProperty h (b.role.id TaskModel.ids) b.member) with
    | mk result t =>
      cases result with
      | ok w => exact Binding.kind_of_getProperty sound registered member access hr
      | error e => trivial
  have fixed : b.result? = some kind := by simp only [Binding.result?, access]
  have ran : (b.run h []).Meets s
      (fun found t => (value.Passable ∧ s.Grants value.width) ∧ s.Spends value.width t ∧
        ∃ w, found = some w ∧ w.kind? = some kind ∧ t.Shows s.heap.objects.length value w ∧
          s.Lent w t)
      fun _ _ => ¬ (value.Passable ∧ s.Grants value.width) := by
    refine meets_run registered.run_taskIds ?_
    rw [access]
    have both := (Meets.and handed kinds).imp (fun _ _ made => made) fun _ _ failed => failed.1.1
    refine both.bind ?_
    rintro w t ⟨⟨granted, spends, shows, lent⟩, hk⟩
    rw [expectKind, if_pos hk]
    exact meets_pure ⟨granted, spends, w, rfl, hk, shows, lent⟩
  refine ran.bind ?_
  rintro found t ⟨granted, spends, w, rfl, hk, shows, lent⟩
  rw [fixed]
  exact meets_pure ⟨granted, spends, w, rfl, hk, shows, lent⟩

/-- With room to spare a getter tells the value of its property exactly when it is passable. -/
theorem Call.getter_decides {b : Binding} {kind : Kind} {value : Value} (sound : s.Sound)
    (ready : s.Ready (n + 1)) (member : b ∈ Binding.all) (access : b.access = .get kind)
    (hb : s.handles.bound? h = some ref)
    (htag : ref.tag = .interface (b.role.id TaskModel.ids))
    (read : s.run (readProperty ref b.member) = (.ok value, s)) :
    (Call.member b h []).body.Meets s
      (fun a t => value.Passable ∧ ∃ ws, a = ⟨.ofWire kind (ws.headD .void), []⟩ ∧
        List.Forall₂ (t.Shows s.heap.objects.length) [value] ws) fun _ _ => ¬ value.Passable := by
  have enough : s.Ready (n + value.width) := ready.covers value
  refine (Call.getter_gives sound member access hb htag read).imp ?_ fun _ _ failed passable =>
    failed ⟨passable, enough.grants⟩
  rintro a t ⟨⟨passable, _⟩, _, w, rfl, _, shows, _⟩
  exact ⟨passable, [w], rfl, .cons shows .nil⟩

theorem Op.run_nativeTask {task : Task} (sound : s.Sound) (hb : s.handles.bound? h = some ref)
    (hp : s.heap.payloadAt ref.number = some (.task task)) :
    s.run (nativeTask h) = (.ok (ref, task), s) := by
  have htag : ref.tag = .interface TaskModel.ids.task := sound.heap.fits_of_holds (sound.has hb) hp
  have registered := sound.registered (sound.has hb) (by rw [htag]; rfl)
  have resolved : s.handles.resolve h (some (.interface TaskModel.ids.task)) = .ok ref :=
    HandleTable.resolve_eq_ok_iff.mpr ⟨hb, fun tag same => by cases same; exact htag⟩
  simp only [nativeTask, run_bind, registered.run_taskIds, run_resolve, resolved, run_get,
    Heap.task?_eq_some_iff.mpr hp, run_pure]

/-- A tag is told exactly when it is clean. -/
theorem Call.tagItem_decides {task : Task} {index : Nat} {tag : String} (sound : s.Sound)
    (ready : s.Ready (n + 1)) (hb : s.handles.bound? h = some ref)
    (hp : s.heap.payloadAt ref.number = some (.task task)) (found : task.tags[index]? = some tag) :
    (Call.tagItem h index).body.Meets s
      (fun a t => Text.Clean tag ∧ ∃ ws, a = ⟨.handle (ws.headD .void).handleBits, []⟩ ∧
        List.Forall₂ (t.Shows s.heap.objects.length) [.str tag] ws)
      fun _ _ => ¬ Text.Clean tag := by
  have item : (Op.tagItem h index).Meets s
      (fun h t => Text.Clean tag ∧ t.Ready n ∧
        t.Shows s.heap.objects.length (.str tag) (.handle h)) fun _ _ => ¬ Text.Clean tag := by
    refine meets_run (run_nativeTask sound hb hp) ?_
    simp only [found]
    exact issueText_exact sound.table ready tag
  exact item.bind fun h t ⟨clean, _, shows⟩ =>
    meets_pure ⟨clean, [.handle h], rfl, .cons shows .nil⟩

end Members

/-! ### Items of arrays -/

section Collections

variable {s t : State} {h : Handle} {ref : Ref} {c : Collection} {n : Nat} {entry : Entry}

theorem Op.run_collection {kind : CollectionKind} (sound : s.Sound)
    (hb : s.handles.bound? h = some ref)
    (hc : s.heap.payloadAt ref.number = some (.collection c)) (kind_eq : c.kind = kind) :
    s.run (collection h kind) = (.ok (ref, c), s) := by
  have fits : ref.tag = c.kind.tag := (sound.heap.fits_of_holds (sound.has hb) hc).1
  have resolved : s.handles.resolve h (some kind.tag) = .ok ref :=
    HandleTable.resolve_eq_ok_iff.mpr ⟨hb, fun tag same => by cases same; rw [fits, kind_eq]⟩
  simp only [collection, run_bind, run_resolve, resolved, run_payload hc, run_pure]

/-- An item is told exactly when it is passable. -/
theorem Call.item_decides {index : Nat} (sound : s.Sound) (typed : s.WellTyped)
    (ready : s.Ready (n + 1)) (hb : s.handles.bound? h = some ref)
    (hc : s.heap.payloadAt ref.number = some (.collection c)) (kind_eq : c.kind = .array)
    (found : c.entries[index]? = some entry) :
    (Call.item h index true).body.Meets s
      (fun a t => entry.value.Passable ∧ ∃ ws, a = ⟨.bool true, ws⟩ ∧
        List.Forall₂ (t.Shows s.heap.objects.length) [entry.value] ws)
      fun _ _ => ¬ entry.value.Passable := by
  have member : entry ∈ c.entries := List.mem_of_getElem? found
  have whole : c.WellTyped s.registry := typed _ _ hc
  have carries := (sound.carries (sound.has hb) hc).subset (Collection.refs_value_subset member)
  have item : s.run (check (c.item index)) = (.ok entry.value, s) := by
    rw [run_check, Collection.item, found]
    rfl
  have read : (arrayItem h index).Meets s
      (fun w t => entry.value.Passable ∧ t.Ready n ∧
        t.Shows s.heap.objects.length entry.value w ∧ s.Lent w t)
      fun _ _ => ¬ entry.value.Passable :=
    meets_run (run_collection sound hb hc kind_eq) (meets_run item
      (outboundAs_delivers sound ready carries fun ty elem => whole.values ty elem entry member))
  refine meets_run (run_pure s ()) (read.bind fun w t ⟨passable, _, shows, _⟩ => ?_)
  exact meets_pure ⟨passable, [w], rfl, .cons shows .nil⟩

/-! ### Stepping through a collection -/

def CollectionKind.next (kind : CollectionKind) (h : Handle) : Call :=
  match kind with
  | .dict => .nextEntry h true true
  | .array | .set => .nextMember h true

/-- The values that the call hands out for an entry. -/
def Entry.parts (kind : CollectionKind) (entry : Entry) : List Value :=
  match kind with
  | .dict => [entry.key.getD .void, entry.value]
  | .array | .set => [entry.value]

/-- The number of handles that an entry may take. -/
def CollectionKind.width : CollectionKind → Nat
  | .dict => 2
  | .array | .set => 1

def Entry.Passable (kind : CollectionKind) (entry : Entry) : Prop :=
  ∀ value ∈ entry.parts kind, value.Passable

def Entry.width (kind : CollectionKind) (entry : Entry) : Nat :=
  ((entry.parts kind).map Value.width).sum

theorem Entry.width_le (kind : CollectionKind) (entry : Entry) :
    entry.width kind ≤ kind.width := by
  have key := (entry.key.getD .void).width_le_one
  have value := entry.value.width_le_one
  cases kind with
  | dict =>
    simp only [Entry.width, Entry.parts, CollectionKind.width, List.map_cons, List.map_nil,
      List.sum_cons, List.sum_nil]
    omega
  | array | set => simpa [Entry.width, Entry.parts, CollectionKind.width] using value

theorem Entry.Clean.of_mem_parts {kind : CollectionKind} {value : Value} (clean : entry.Clean)
    (part : value ∈ entry.parts kind) : value.Clean := by
  have either : value = entry.key.getD .void ∨ value = entry.value := by
    cases kind <;> simp [Entry.parts] at part <;> simp [part]
  rcases either with rfl | rfl
  · exact clean.1
  · exact clean.2

/-- The collection with its cursor at a place. -/
def Collection.at (c : Collection) (place : Nat) : Collection := { c with cursor := place }

/-- A collection behind a live handle. -/
structure State.Behind (s : State) (h : Handle) (ref : Ref) (c : Collection) : Prop where
  sound : s.Sound
  typed : s.WellTyped
  bound : s.handles.bound? h = some ref
  payload : s.heap.payloadAt ref.number = some (.collection c)

/-- A collection behind a live handle, in a state with room for handles. -/
structure State.Holding (s : State) (h : Handle) (ref : Ref) (c : Collection) (n : Nat) : Prop where
  sound : s.Sound
  typed : s.WellTyped
  ready : s.Ready n
  bound : s.handles.bound? h = some ref
  payload : s.heap.payloadAt ref.number = some (.collection c)

theorem State.Holding.behind (holding : s.Holding h ref c n) : s.Behind h ref c :=
  ⟨holding.sound, holding.typed, holding.bound, holding.payload⟩

/-- An object behind a live handle has the payload that it is given, and what was copied stays. -/
theorem State.withPayload_kept {p : Payload} (hb : s.handles.bound? h = some ref)
    (has : s.heap.Has ref) (sound : (s.withPayload ref p).Sound) :
    (s.withPayload ref p).heap.payloadAt ref.number = some p ∧
      ∀ {first value w}, ref.number < first → s.Shows first value w →
        (s.withPayload ref p).Shows first value w := by
  -- Replacing may drop what only the old payload held, but nothing that still has a live handle.
  have replaced : ∀ k r, s.handles.bound? k = some r →
      (s.withPayload ref p).heap.payloadAt r.number =
        if ref.number = r.number then some p else s.heap.payloadAt r.number :=
    fun k r hk => Heap.payloadAt_replace_of_alive has.lt_length (sound.holds_bound hk).alive
  refine ⟨by rw [replaced h ref hb, if_pos rfl], fun old shows => ?_⟩
  refine shows.kept (Nat.le_refl _) (fun _ _ hk => hk) fun k r q hk new hq => ?_
  rw [replaced k r hk, if_neg (by omega), hq]

/-- Values have been handed out that take so many handles, and the cursor has moved on. -/
structure State.Stepped (s : State) (h : Handle) (ref : Ref) (c : Collection) (n : Nat)
    (values : List Value) (ws : List Wire) (t : State) : Prop where
  shows : List.Forall₂ (t.Shows s.heap.objects.length) values ws
  spends : s.Spends n t
  bound : t.handles.bound? h = some ref
  payload : t.heap.payloadAt ref.number = some (.collection c.advance)

/-- The cursor moves on after values have been lent. -/
theorem Op.advance_steps {bad : Failure → State → Prop} {values : List Value} {ws : List Wire}
    (behind : s.Behind h ref c) (advanced : s.Advanced t)
    (grown : s.heap.Grown t.heap) (bound : t.handles.bound? h = some ref) (spends : s.Spends n t)
    (shows : List.Forall₂ (t.Shows s.heap.objects.length) values ws) :
    (replace ref (.collection c.advance)).Meets t
      (fun _ u => s.Stepped h ref c n values ws u) bad := by
  have holds := behind.sound.holds_bound behind.bound
  have meets : (replace ref (.collection c.advance)).Meets t (fun _ u => s.Advanced u) bad :=
    advance_meets advanced grown holds behind.payload
  have moved := meets.ok_of_run (run_replace t ref _)
  obtain ⟨payload, kept⟩ := withPayload_kept bound (advanced.sound.has bound) moved.sound
  have spent : s.Spends n (t.withPayload ref (.collection c.advance)) :=
    ⟨spends.room_eq, spends.live_eq, spends.options_eq⟩
  refine meets_of_run (run_replace t ref _) ⟨?_, spent, bound, payload⟩
  exact shows.imp fun _ _ shown => kept holds.has.lt_length shown

/-- A step was refused: nothing is left of it, and there is no more room than before. -/
def State.Barred (s : State) (e : Failure) (t : State) : Prop :=
  s.Refused e t ∧ t.handles.room ≤ s.handles.room

theorem Op.nextMember_exact (behind : s.Behind h ref c) (kind_eq : c.kind = .set)
    (current : c.current? = some entry) :
    (nextMember h).Meets s
      (fun found t => (entry.value.Passable ∧ s.Grants entry.value.width) ∧ ∃ w, found = some w ∧
        s.Stepped h ref c entry.value.width [entry.value] [w] t)
      fun e t => ¬ (entry.value.Passable ∧ s.Grants entry.value.width) ∧ s.Barred e t := by
  have ⟨sound, typed, bound, payload⟩ := behind
  have member : entry ∈ c.entries := List.mem_of_getElem? current
  have whole : c.WellTyped s.registry := typed _ _ payload
  have carries := (sound.carries (sound.has bound) payload).subset
    (Collection.refs_value_subset member)
  have gives := (outboundAs_lends sound carries fun ty elem =>
    whole.values ty elem entry member).imp (fun _ _ made => made)
      fun e t ⟨denied, same, refused⟩ =>
        (⟨denied, refused, Nat.le_of_eq (by rw [same])⟩ : _ ∧ s.Barred e t)
  refine meets_run (run_collection sound bound payload kind_eq) ?_
  simp only [current]
  refine gives.bind fun w t ⟨granted, spends, shows, lent⟩ => ?_
  refine (advance_steps behind lent.advanced lent.grown (lent.bound_of bound) spends
    (.cons shows .nil)).bind fun _ u stepped => ?_
  exact meets_pure ⟨granted, w, rfl, stepped⟩

/-- A key for which there is a handle is taken back when there is none for the value. -/
theorem Op.nextEntry_exact (behind : s.Behind h ref c) (kind_eq : c.kind = .dict)
    (current : c.current? = some entry) :
    let key := entry.key.getD .void
    let granted := (key.Passable ∧ entry.value.Passable) ∧ s.Grants (key.width + entry.value.width)
    (nextEntry h).Meets s
      (fun found t => granted ∧ ∃ wk wv, found = some (wk, wv) ∧
        s.Stepped h ref c (key.width + entry.value.width) [key, entry.value] [wk, wv] t)
      fun e t => ¬ granted ∧ s.Barred e t := by
  intro key granted
  have ⟨sound, typed, bound, payload⟩ := behind
  have member : entry ∈ c.entries := List.mem_of_getElem? current
  have whole : c.WellTyped s.registry := typed _ _ payload
  have carries := sound.carries (sound.has bound) payload
  have first : (outboundAs key c.keyTy).Meets s
      (fun w t => (key.Passable ∧ s.Grants key.width) ∧ s.Spends key.width t ∧
        t.Shows s.heap.objects.length key w ∧ s.Lent w t)
      fun e t => ¬ granted ∧ s.Barred e t := by
    refine (outboundAs_lends sound (carries.subset (Collection.refs_key_subset member))
      fun ty declared => whole.keys ty declared entry member).imp (fun _ _ made => made) ?_
    rintro e t ⟨denied, same, refused⟩
    refine ⟨fun all => denied ⟨all.1.1, all.2.mono (Nat.le_add_right _ _)⟩, refused, ?_⟩
    rw [same]
  refine meets_run (run_collection sound bound payload kind_eq) ?_
  simp only [current]
  refine first.bind fun wk t ⟨⟨keyPassable, keyGranted⟩, keySpends, keyShows, lent⟩ => ?_
  have second := outboundAs_lends lent.sound
    ((carries.subset (Collection.refs_value_subset member)).grown lent.grown)
    fun ty (declared : c.elemTy = some ty) => by
      rw [lent.setting.registry_eq]
      exact whole.values ty declared entry member
  refine (second.tryCatch fun e u ⟨denied, same, refused⟩ => ?_).bind fun wv u made => ?_
  · have fails : ¬ granted := fun all =>
      denied ⟨all.1.2, (keySpends.grants_iff keyGranted).mpr all.2⟩
    have dropped : (discard wk).Meets u (fun _ v => s.Barred e v) fun _ _ => False := by
      refine (Meets.and (discard_undoes lent refused) (discard_room refused.sound.table wk)).imp
        ?_ fun _ _ none => none.1
      rintro _ v ⟨undone, total⟩
      refine ⟨undone, undone.room_le sound.table ?_⟩
      rw [same, keySpends.live_eq] at total
      have room := keySpends.room_eq
      omega
    exact (dropped.imp (fun _ _ barred => barred) fun _ _ none => none.elim).bind fun _ v barred =>
      meets_throw ⟨fails, barred⟩
  · obtain ⟨⟨passable, valueGranted⟩, spends, shows, lent'⟩ := made
    have granted : granted :=
      ⟨⟨keyPassable, passable⟩, (keySpends.grants_iff keyGranted).mp valueGranted⟩
    refine (advance_steps behind (lent.advanced.trans lent'.advanced)
      (lent.grown.trans lent'.grown) (lent'.bound_of (lent.bound_of bound))
      (keySpends.trans spends)
      (.cons (keyShows.lent lent') (.cons (shows.from lent.grown.length_le) .nil))).bind
      fun _ v stepped => ?_
    exact meets_pure ⟨granted, wk, wv, rfl, stepped⟩

/-- A step hands out the entry under the cursor exactly when its parts are passable and there are
handles for them. -/
theorem Call.next_exact (behind : s.Behind h ref c) (stepped : c.kind ≠ .array)
    (current : c.current? = some entry) :
    let granted := entry.Passable c.kind ∧ s.Grants (entry.width c.kind)
    (c.kind.next h).body.Meets s
      (fun a t => granted ∧ ∃ ws, a = ⟨.bool true, ws⟩ ∧
        s.Stepped h ref c (entry.width c.kind) (entry.parts c.kind) ws t)
      fun e t => ¬ granted ∧ s.Barred e t := by
  cases kind_eq : c.kind with
  | array => exact absurd kind_eq stepped
  | set =>
    have passable_iff : entry.Passable .set ↔ entry.value.Passable := by
      simp [Entry.Passable, Entry.parts]
    simp only [passable_iff]
    refine meets_run (run_pure s ()) ((nextMember_exact behind kind_eq current).bind ?_)
    rintro found t ⟨granted, w, rfl, stepped⟩
    exact meets_pure ⟨granted, [w], rfl, stepped⟩
  | dict =>
    have passable_iff : entry.Passable .dict ↔
        (entry.key.getD .void).Passable ∧ entry.value.Passable := by
      simp [Entry.Passable, Entry.parts]
    simp only [passable_iff]
    refine meets_run (run_pure s ()) ((nextEntry_exact behind kind_eq current).bind ?_)
    rintro found t ⟨granted, wk, wv, rfl, stepped⟩
    exact meets_pure ⟨granted, [wk, wv], rfl, stepped⟩

/-- With room to spare a step hands out the entry exactly when its parts are passable. -/
theorem Call.next_decides (holding : s.Holding h ref c (n + c.kind.width))
    (stepped : c.kind ≠ .array) (current : c.current? = some entry) :
    (c.kind.next h).body.Meets s
      (fun a t => entry.Passable c.kind ∧ ∃ ws, a = ⟨.bool true, ws⟩ ∧ t.Ready n ∧
        s.Stepped h ref c (entry.width c.kind) (entry.parts c.kind) ws t)
      fun _ _ => ¬ entry.Passable c.kind := by
  have enough : s.Ready (n + entry.width c.kind) :=
    holding.ready.mono (Nat.add_le_add_left (entry.width_le c.kind) n)
  refine (next_exact holding.behind stepped current).imp ?_ fun _ _ failed passable =>
    failed.1 ⟨passable, enough.grants⟩
  rintro a t ⟨⟨passable, _⟩, ws, rfl, stepped⟩
  exact ⟨passable, ws, rfl, enough.spent stepped.spends, stepped⟩

/-- Resetting puts the cursor on the first entry and changes nothing else. -/
theorem Call.reset_exact (behind : s.Behind h ref c) :
    (Call.reset c.kind h).body.Meets s
      (fun a t => a = ⟨.bool true, []⟩ ∧ t.handles = s.handles ∧ t.options = s.options ∧
        t.heap.payloadAt ref.number = some (.collection c.reset)) fun _ _ => False := by
  have ⟨sound, typed, bound, payload⟩ := behind
  have replaced : (replace ref (.collection c.reset)).Meets s (fun _ t => s.Advanced t)
      fun _ _ => False :=
    replace_collection_meets sound (sound.holds_bound bound) payload (Heap.carries_nil _)
      ⟨rfl, fun r hr => .inl hr⟩
  have moved := replaced.ok_of_run (run_replace _ ref _)
  have put : (resetCursor h c.kind).Meets s
      (fun _ t => t.handles = s.handles ∧ t.options = s.options ∧
        t.heap.payloadAt ref.number = some (.collection c.reset)) fun _ _ => False :=
    meets_run (run_collection sound bound payload rfl) (meets_of_run (run_replace _ ref _)
      ⟨rfl, rfl, (withPayload_kept bound (sound.has bound) moved.sound).1⟩)
  exact put.bind fun _ t rest => meets_pure ⟨rfl, rest⟩

theorem CollectionKind.exported_next (kind : CollectionKind) (h : Handle) :
    (kind.next h).Exported := by
  cases kind with
  | dict =>
    exact .of_symbol "TaskManagerDict_Next" [.handle h, .output true, .output true] rfl
  | array | set => exact .of_symbol "TaskManagerSet_Next" [.handle h, .output true] rfl

theorem CollectionKind.exported_reset {kind : CollectionKind} (stepped : kind ≠ .array)
    (h : Handle) : (Call.reset kind h).Exported := by
  cases kind with
  | array => exact absurd rfl stepped
  | dict => exact .of_symbol "TaskManagerDict_Reset" [.handle h] rfl
  | set => exact .of_symbol "TaskManagerSet_Reset" [.handle h] rfl

namespace State

variable {thread place : Nat}

theorem Holding.countCall (holding : s.Holding h ref c n) : s.countCall.Holding h ref c n :=
  ⟨holding.sound.countCall, holding.typed, ⟨holding.ready.unlimited, holding.ready.room⟩,
    holding.bound, holding.payload⟩

/-- A call that succeeds and leaves a collection behind its handle. -/
theorem Holding.perform {c' : Collection} {m : Nat} {call : Call}
    (holding : s.Holding h ref c m) (exported : call.Exported)
    (passes : s.perform thread call = s.guarded thread ⟨call.sentinel, []⟩ call.body)
    (meets : call.body.Meets s.countCall
      (fun _ t => t.Ready n ∧ t.handles.bound? h = some ref ∧
        t.heap.payloadAt ref.number = some (.collection c')) fun _ _ => False) :
    (s.perform thread call).2.Holding h ref c' n := by
  have sound := (advanced_perform holding.sound thread exported).sound
  have typed := wellTyped_perform holding.sound holding.typed thread exported
  rw [passes] at sound typed ⊢
  rcases guarded_cases s thread ⟨call.sentinel, []⟩ call.body with ⟨a, t, hr, hg⟩ | ⟨e, t, hr, hg⟩
  · obtain ⟨ready, bound, payload⟩ := meets.ok_of_run hr
    rw [hg] at sound typed ⊢
    exact ⟨sound, typed, ⟨ready.unlimited, ready.room⟩, bound, payload⟩
  · exact (meets.bad_of_run hr).elim

/-- One step: the entry under the cursor is told exactly when it is passable, and then the next
entry is under the cursor. -/
theorem Holding.step (holding : s.Holding h ref (c.at place) (n + c.kind.width))
    (stepped : c.kind ≠ .array) (found : c.entries[place]? = some entry) (thread : Nat) :
    (s.Tells thread (c.kind.next h) (fun ws => ⟨.bool true, ws⟩) (entry.parts c.kind) ↔
      entry.Passable c.kind) ∧
    (entry.Passable c.kind →
      (s.perform thread (c.kind.next h)).2.Holding h ref (c.at (place + 1)) n) := by
  have decides := Call.next_decides holding.countCall stepped found
  have passes : s.perform thread (c.kind.next h) =
      s.guarded thread ⟨(c.kind.next h).sentinel, []⟩ (c.kind.next h).body := by
    cases c.kind <;> rfl
  refine ⟨tells_iff passes (decides.ok_imp ?_), fun passable => ?_⟩
  · rintro a t ⟨passable, ws, rfl, _, stepped⟩
    exact ⟨passable, ws, rfl, stepped.shows⟩
  · refine holding.perform (c.kind.exported_next h) passes (decides.imp ?_ fun _ _ refused =>
      refused passable)
    rintro a t ⟨_, ws, _, ready, stepped⟩
    exact ⟨ready, stepped.bound, stepped.payload⟩

/-- Steps by any threads, as long as all entries on the way are passable. -/
theorem Holding.steps (threads : List Nat)
    (holding : s.Holding h ref (c.at place) (n + c.kind.width * threads.length))
    (stepped : c.kind ≠ .array) (inside : place + threads.length ≤ c.count)
    (passable : ∀ i < place + threads.length, ∀ entry, c.entries[i]? = some entry →
      entry.Passable c.kind) :
    (s.performAll (threads.map (·, c.kind.next h))).Holding h ref (c.at (place + threads.length))
      n := by
  -- Each step moves the cursor by one and takes room for one entry from what is left.
  induction threads generalizing s place with
  | nil => exact holding
  | cons thread threads ih =>
    rw [List.length_cons] at holding inside passable ⊢
    obtain ⟨entry, found⟩ : ∃ entry, c.entries[place]? = some entry :=
      ⟨_, List.getElem?_eq_getElem (by unfold Collection.count at inside; omega)⟩
    rw [Nat.mul_succ, ← Nat.add_assoc] at holding
    have next := (holding.step stepped found thread).2 (passable place (by omega) entry found)
    have rest := ih next (by omega) fun i small => passable i (by omega)
    rw [Nat.add_right_comm, Nat.add_assoc] at rest
    exact rest

/-- Resetting puts the cursor on the first entry. -/
theorem Holding.reset (holding : s.Holding h ref c n) (stepped : c.kind ≠ .array) (thread : Nat) :
    s.Tells thread (.reset c.kind h) (fun ws => ⟨.bool true, ws⟩) [] ∧
      (s.perform thread (.reset c.kind h)).2.Holding h ref (c.at 0) n := by
  have meets := Call.reset_exact holding.countCall.behind
  refine ⟨(tells_iff rfl (meets.imp ?_ ?_)).mpr trivial, ?_⟩
  · rintro a t ⟨rfl, _⟩
    exact ⟨trivial, [], rfl, .nil⟩
  · exact fun _ _ none => none.elim
  · refine holding.perform (CollectionKind.exported_reset stepped h) rfl (meets.ok_imp ?_)
    rintro a t ⟨_, handles_eq, options_eq, payload⟩
    refine ⟨⟨options_eq ▸ holding.ready.unlimited, handles_eq ▸ holding.ready.room⟩, ?_, payload⟩
    exact handles_eq ▸ holding.bound

end State

end Collections

/-! ### Runs without foreign texts -/

namespace State

variable {s : State}

/-- The states that are reached when no file is loaded while some file holds a text with a NUL. -/
inductive Untainted : State → Prop where
  | start : Untainted {}
  | call {s : State} (untainted : Untainted s) (thread : Nat) {call : Call}
      (exported : call.Exported) (clean : call.isLoad = true → s.files.Clean) :
      Untainted (s.perform thread call).2
  | surroundings {s : State} (untainted : Untainted s) (options : Options) (files : Files)
      (now : Int) : Untainted { s with options, files, now }

/-- No object of such a state has a text with a NUL. -/
theorem Untainted.clean (untainted : s.Untainted) :
    s.Sound ∧ s.heap.Forest ∧ s.heap.Clean := by
  induction untainted with
  | start => exact ⟨sound_empty, Heap.forest_empty, Heap.every_empty⟩
  | @call s untainted thread call exported clean ih =>
    obtain ⟨sound, forest, whole⟩ := ih
    have alters := perform_alters sound forest thread call
    exact ⟨(advanced_perform sound thread exported).sound, alters.forest forest,
      alters.clean ⟨whole, clean⟩ whole⟩
  | surroundings untainted options files now ih =>
    obtain ⟨sound, forest, whole⟩ := ih
    exact ⟨sound.of_eq rfl rfl rfl rfl rfl, forest, whole⟩

theorem Untainted.reachable (untainted : s.Untainted) : s.Reachable := by
  induction untainted with
  | start => exact .refl
  | call _ thread exported _ ih => exact ih.step (.call thread exported)
  | surroundings _ options files now ih => exact ih.step (.surroundings options files now)

/-- Calls that load nothing bring no such text in. -/
theorem Untainted.performAll {calls : List (Nat × Call)} (untainted : s.Untainted)
    (plain : ∀ call ∈ calls, call.2.Exported ∧ call.2.isLoad = false) :
    (s.performAll calls).Untainted := by
  induction calls generalizing s with
  | nil => exact untainted
  | cons call calls ih =>
    obtain ⟨exported, loadless⟩ := plain call (by simp)
    refine ih (.call untainted call.1 exported fun loads => ?_) fun c hc => plain c (by simp [hc])
    cases loadless.symm.trans loads

/-- While no limit is set and the table has room, every getter, tag and item is told, and so are all
entries of a dictionary or a set one after another, except for a text with a NUL. Without files that
hold one, there is no such text. -/
theorem stored_data_readable (reachable : s.Reachable)
    (unlimited : s.options.maxLiveHandles = 0) :
    (∀ (thread : Nat) (b : Binding) (kind : Kind) (h : Handle) (ref : Ref), b ∈ Binding.all →
      b.access = .get kind → s.handles.bound? h = some ref →
      ref.tag = .interface (b.role.id TaskModel.ids) → 0 < s.handles.room →
      ∃ value, s.run (readProperty ref b.member) = (.ok value, s) ∧
        (s.Tells thread (.member b h []) (fun ws => ⟨.ofWire kind (ws.headD .void), []⟩) [value] ↔
          value.Passable) ∧ (s.Untainted → value.Passable)) ∧
    (∀ (thread : Nat) (h : Handle) (ref : Ref) (task : Task) (index : Nat) (tag : String),
      s.handles.bound? h = some ref → s.heap.payloadAt ref.number = some (.task task) →
      task.tags[index]? = some tag → 0 < s.handles.room →
      (s.Tells thread (.tagItem h index) (fun ws => ⟨.handle (ws.headD .void).handleBits, []⟩)
          [.str tag] ↔ Text.Clean tag) ∧ (s.Untainted → Text.Clean tag)) ∧
    (∀ (thread : Nat) (h : Handle) (ref : Ref) (c : Collection) (index : Nat) (entry : Entry),
      s.handles.bound? h = some ref → s.heap.payloadAt ref.number = some (.collection c) →
      c.kind = .array → c.entries[index]? = some entry → 0 < s.handles.room →
      (s.Tells thread (.item h index true) (fun ws => ⟨.bool true, ws⟩) [entry.value] ↔
          entry.value.Passable) ∧ (s.Untainted → entry.value.Passable)) ∧
    ∀ (h : Handle) (ref : Ref) (c : Collection), s.handles.bound? h = some ref →
      s.heap.payloadAt ref.number = some (.collection c) → c.kind ≠ .array →
      c.kind.width * c.count ≤ s.handles.room →
      (s.Untainted → ∀ entry ∈ c.entries, entry.Passable c.kind) ∧
      ∀ (thread : Nat), s.Tells thread (.reset c.kind h) (fun ws => ⟨.bool true, ws⟩) [] ∧
        ∀ (threads : List Nat) (next : Nat) (entry : Entry),
          (∀ earlier ∈ c.entries.take threads.length, earlier.Passable c.kind) →
          c.entries[threads.length]? = some entry →
          let reset := (s.perform thread (.reset c.kind h)).2
          ((reset.performAll (threads.map (·, c.kind.next h))).Tells next (c.kind.next h)
            (fun ws => ⟨.bool true, ws⟩) (entry.parts c.kind) ↔ entry.Passable c.kind) := by
  have sound := reachable.sound
  have typed := reachable.wellTyped
  have ready (room : 0 < s.handles.room) : s.countCall.Ready (0 + 1) := ⟨unlimited, room⟩
  refine ⟨fun thread b kind h ref member access hb htag room => ?_,
    fun thread h ref task index tag hb hp found room => ?_,
    fun thread h ref c index entry hb hc kind_eq found room => ?_,
    fun h ref c hb hc stepped room => ?_⟩
  · have registered := sound.registered (sound.has hb) (by rw [htag]; rfl)
    obtain ⟨d, p, hd, declared⟩ := Binding.exists_property registered member access
    obtain ⟨value, _, read⟩ := run_readProperty sound hb htag hd declared
    refine ⟨value, read s rfl, tells_iff rfl (Call.getter_decides sound.countCall (ready room)
      member access hb htag (read s.countCall rfl)), fun untainted => ?_⟩
    have finds := readProperty_clean sound (sound.holds_bound hb) b.member
    exact ((finds.ok_of_run (read s rfl)).2 untainted.clean.2.2).passable
  · refine ⟨tells_iff rfl (Call.tagItem_decides sound.countCall (ready room) hb hp found), ?_⟩
    intro untainted
    have whole : task.Clean := untainted.clean.2.2 _ _ hp
    exact whole.tags tag (List.mem_of_getElem? found)
  · refine ⟨tells_iff rfl (Call.item_decides sound.countCall typed (ready room) hb hc kind_eq
      found), fun untainted => ?_⟩
    have whole : c.Clean := untainted.clean.2.2 _ _ hc
    exact (whole entry (List.mem_of_getElem? found)).2.passable
  · have holding (n : Nat) (enough : n ≤ s.handles.room) : s.Holding h ref c n :=
      ⟨sound, typed, ⟨unlimited, enough⟩, hb, hc⟩
    refine ⟨fun untainted entry member value part => ?_, fun thread =>
      ⟨((holding 0 (Nat.zero_le _)).reset stepped thread).1,
        fun threads next entry passable found => ?_⟩⟩
    · have whole : c.Clean := untainted.clean.2.2 _ _ hc
      exact (whole entry member).of_mem_parts part |>.passable
    · have inside : threads.length < c.count := (List.getElem?_eq_some_iff.mp found).1
      -- Room for all entries is room for those on the way and for this one.
      have enough : 0 + c.kind.width + c.kind.width * threads.length ≤ s.handles.room := by
        have most := Nat.mul_le_mul_left c.kind.width inside
        rw [Nat.mul_succ] at most
        omega
      have start := ((holding _ enough).reset stepped thread).2
      have reached := start.steps threads stepped (by omega) fun i small entry at_i => ?_
      · rw [Nat.zero_add] at reached
        exact (reached.step stepped found next).1
      · rw [Nat.zero_add] at small
        have taken : (c.entries.take threads.length)[i]? = some entry := by
          rw [List.getElem?_take_of_lt small, at_i]
        exact passable entry (List.mem_of_getElem? taken)

def collection? (s : State) (ref : Ref) : Option Collection :=
  match s.heap.payload? ref with
  | some (.collection c) => some c
  | _ => none

theorem collection?_eq_some_iff {ref : Ref} {c : Collection} :
    s.collection? ref = some c ↔ s.heap.payloadAt ref.number = some (.collection c) := by
  rw [collection?, Heap.payload?_eq_payloadAt]
  split <;> simp_all

/-- The id of a task, its tag and the only member of a set are read. -/
theorem tag_read_back :
    let task : Handle := ⟨0x100000001⟩
    let word : Handle := ⟨0x100000002⟩
    let words : Handle := ⟨0x100000003⟩
    let s := performAll {} [(0, .createAs .task), (0, .createText (.text "urgent")),
      (0, .addTag task word), (0, .newCollection .set), (0, .insertMember words (.handle word))]
    s.Tells 1 (.member ⟨"ITask_Getid", .task, "id", .get .handle⟩ task [])
        (fun ws => ⟨.ofWire .handle (ws.headD .void), []⟩) [.str "task-1"] ∧
      s.Tells 1 (.tagItem task 0) (fun ws => ⟨.handle (ws.headD .void).handleBits, []⟩)
        [.str "urgent"] ∧
      (s.perform 1 (.reset .set words)).2.Tells 2 (CollectionKind.set.next words)
        (fun ws => ⟨.bool true, ws⟩) [.str "urgent"] := by
  intro task word words s
  have untainted : s.Untainted := by
    refine Untainted.start.performAll fun call hcall => ?_
    simp only [List.mem_cons, List.not_mem_nil, or_false] at hcall
    rcases hcall with rfl | rfl | rfl | rfl | rfl
    · exact ⟨.of_symbol "ITask_Create" [] rfl, rfl⟩
    · exact ⟨.of_symbol "idlbridge_string_create" [.text _] rfl, rfl⟩
    · exact ⟨.of_symbol "ITask_Settags_Add" [.handle _, .handle _] rfl, rfl⟩
    · exact ⟨.of_symbol "idlbridge_set_new" [] rfl, rfl⟩
    · exact ⟨.of_symbol "idlbridge_set_insert" [.handle _, .wire _] rfl, rfl⟩
  let self : Ref := ⟨0, .interface TaskModel.ids.task⟩
  have facts : s.options.maxLiveHandles = 0 ∧ 0 < s.handles.room ∧
      s.handles.bound? task = some self ∧
      (s.heap.task? self).map (fun t => (t.id, t.tags)) = some ("task-1", ["urgent"]) ∧
      s.handles.bound? words = some ⟨2, .set⟩ ∧
      (s.collection? ⟨2, .set⟩).map (fun c =>
        (c.kind, c.entries.map (·.value.same (.str "urgent")))) = some (.set, [true]) := by
    decide +kernel
  obtain ⟨unlimited, room, hb, held, hb', shape⟩ := facts
  clear_value s
  obtain ⟨t, ht, content⟩ := Option.map_eq_some_iff.mp held
  obtain ⟨c, hc, shape⟩ := Option.map_eq_some_iff.mp shape
  obtain ⟨id_eq, tags_eq⟩ := Prod.mk.inj content
  obtain ⟨kind_eq, members⟩ := Prod.mk.inj shape
  obtain ⟨entry, one, same⟩ := List.map_eq_singleton_iff.mp members
  have urgent : entry.value = .str "urgent" := (Value.same_iff_eq _ _).mp same
  have hp := Heap.task?_eq_some_iff.mp ht
  have hc := collection?_eq_some_iff.mp hc
  obtain ⟨properties, tags, _, entries⟩ := stored_data_readable untainted.reachable unlimited
  obtain ⟨value, read, told, passable⟩ :=
    properties 1 ⟨"ITask_Getid", .task, "id", .get .handle⟩ .handle task self (by decide) rfl hb rfl
      room
  have value_eq : value = .str "task-1" := by
    simp only [readProperty, run_bind, run_payload hp] at read
    cases read
    rw [id_eq]
  obtain ⟨tagTold, clean⟩ := tags 1 task self t 0 "urgent" hb hp (by rw [tags_eq]; rfl) room
  have width_eq : c.kind.width * c.count = 1 := by
    rw [kind_eq, Collection.count, one]
    rfl
  obtain ⟨speakable, stepped⟩ := entries words ⟨2, .set⟩ c hb' hc (by rw [kind_eq]; decide)
    (by rw [width_eq]; exact room)
  have member : entry ∈ c.entries := by simp [one]
  have last := ((stepped 1).2 [] 2 entry (by simp) (by rw [one]; rfl)).mpr
    (speakable untainted entry member)
  rw [kind_eq, Entry.parts, urgent] at last
  rw [value_eq] at told passable
  exact ⟨told.mpr (passable untainted), tagTold.mpr (clean untainted), last⟩

end State

end ObjectBoundary
