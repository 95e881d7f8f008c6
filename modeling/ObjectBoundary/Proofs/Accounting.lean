import ObjectBoundary.Proofs.Reachable

/-!
# Reference counts are exact

In every reachable state the count of an object is the number of references to it that exist: one
for every live handle, one for every place in the lists of projects and managers, and one for every
occurrence in the entries of collections. An object is destroyed when there is none left, and only
once.
-/

namespace ObjectBoundary

namespace Heap

/-- How often an object stands in the lists of projects and managers that have not been
destroyed. -/
def listed (heap : Heap) (n : Nat) : Nat :=
  (heap.objects.map fun o =>
    match o.payload with
    | some (.project p) => occurrences n p.tasks
    | some (.manager m) => occurrences n m.projects
    | _ => 0).sum

/-- How often an object occurs, at any depth, in keys and values of collections that have not been
destroyed. -/
def collected (heap : Heap) (n : Nat) : Nat :=
  (heap.objects.map fun o =>
    match o.payload with
    | some (.collection c) => occurrences n c.refs
    | _ => 0).sum

theorem sum_map_split {f g k : Object → Nat} {objects : List Object}
    (h : ∀ o ∈ objects, f o = g o + k o) :
    (objects.map f).sum = (objects.map g).sum + (objects.map k).sum := by
  induction objects with
  | nil => rfl
  | cons o objects ih =>
    have hhead := h o (by simp)
    have hrest := ih fun o ho => h o (by simp [ho])
    simp only [List.map_cons, List.sum_cons]
    omega

/-- In a sound heap only lists and collections own references. -/
theorem Sound.owns_eq {held : Nat → Nat} {made : List Nat} {heap : Heap}
    (sound : Sound held made heap) (n : Nat) : heap.owns n = heap.listed n + heap.collected n := by
  refine sum_map_split fun o ho => ?_
  obtain ⟨i, hi⟩ := List.getElem?_of_mem ho
  unfold Object.refs
  cases hp : o.payload with
  | none => rfl
  | some p =>
    have fits : p.Fits o.tag :=
      sound.fits ((payloadAt_of_getElem? hi).trans hp) (tagAt_of_getElem? hi)
    cases p with
    | text value => rfl
    | task content => rfl
    | collection c => simp [Payload.refs]
    | project q => rfl
    | manager m => rfl
    | scripted content => cases fits

end Heap

namespace State

/-- The number of references to an object that exist. -/
def references (s : State) (n : Nat) : Nat :=
  s.handles.share n + s.heap.listed n + s.heap.collected n

/-- The references of a state and what follows from them at the boundary. -/
structure Accounted (s : State) : Prop where
  /-- Every count is the number of references. -/
  count_eq : ∀ (n : Nat) (object : Object), s.heap.objects[n]? = some object →
    object.count = s.references n
  /-- Exactly the objects without references have been destroyed. -/
  destroyed_iff : ∀ (n : Nat) (object : Object), s.heap.objects[n]? = some object →
    (object.payload = none ↔ s.references n = 0)
  /-- Every destroyed object was destroyed once, -/
  destroyed_eq : s.heap.destroyed = s.heap.objects.countP (·.payload.isNone)
  /-- and stays destroyed whatever happens next. -/
  stays_destroyed : ∀ t : State, s.Leads t → ∀ (n : Nat) (object : Object),
    s.heap.objects[n]? = some object → object.payload = none →
    ∃ later : Object, t.heap.objects[n]? = some later ∧ later.payload = none
  /-- A live handle is bound to an object that has not been destroyed. -/
  bound_alive : ∀ h ref, s.handles.bound? h = some ref →
    ∃ object : Object, s.heap.objects[ref.number]? = some object ∧ object.payload.isSome
  /-- No call reports an object that is gone. -/
  unreported : ∀ call : Call, call.Exported → ∀ e t, s.countCall.run call.body = (.error e, t) →
    ∀ n, e.toFault ≠ .objectDestroyed n ∧ e.toFault ≠ .overRelease n
  /-- A caller who asks for the count is told the number of references. -/
  told : ∀ thread h ref, s.handles.bound? h = some ref → s.heap.count ref < 2 ^ 31 - 1 →
    ∃ answer : Int32, (s.perform thread (.refcount h)).1 = ⟨.i32 answer, []⟩ ∧
      answer.toInt = s.references ref.number

variable {s t : State}

theorem Sound.countAt_eq (sound : s.Sound) (n : Nat) : s.heap.countAt n = s.references n := by
  rw [sound.heap.counts, sound.heap.owns_eq, references]
  omega

theorem Sound.destroyed_iff (sound : s.Sound) (n : Nat) :
    s.heap.payloadAt n = none ↔ s.references n = 0 := by
  rw [← sound.countAt_eq]
  constructor
  · intro hnone
    rcases Nat.eq_zero_or_pos (s.heap.countAt n) with hzero | hpos
    · exact hzero
    · have alive := sound.heap.counted_alive n hpos
      simp [hnone] at alive
  · intro hzero
    cases hp : s.heap.payloadAt n with
    | none => rfl
    | some p =>
      rcases sound.heap.alive_counted n (by simp [hp]) with hpos | hmade
      · omega
      · cases hmade

/-- Only handles refer to strings and collections. -/
theorem Sound.count_eq_share (sound : s.Sound) {ref : Ref} (has : s.heap.Has ref)
    (plain : ref.tag.isInterface = false) : s.heap.count ref = s.handles.share ref.number := by
  have unowned : s.heap.owns ref.number = 0 := by
    by_contra owned
    obtain ⟨m, q, r, held, member, number⟩ :=
      Heap.owner_of_owns_pos (Nat.pos_of_ne_zero owned)
    obtain ⟨owner, found, _⟩ := Option.bind_eq_some_iff.mp held
    have fits := sound.heap.fits held (Heap.tagAt_of_getElem? found)
    have has' : s.heap.Has r := sound.heap.has held member
    unfold Heap.Has at has has'
    rw [number, has] at has'
    rw [Option.some.inj has', fits.isInterface_of_mem member] at plain
    cases plain
  rw [Heap.count_eq_countAt, sound.heap.counts, unowned, Nat.add_zero]

/-- What a caller is told who asks for the count behind a live handle. -/
theorem perform_refcount {h : Handle} {ref : Ref} (hb : s.handles.bound? h = some ref)
    (thread : Nat) :
    (s.perform thread (.refcount h)).1 = ⟨.i32 (Int32.ofNat (s.heap.count ref)), []⟩ := by
  have resolved : s.countCall.handles.resolve h none = .ok ref :=
    HandleTable.resolve_eq_ok_iff.mpr ⟨hb, fun tag htag => by cases htag⟩
  have hrun : s.countCall.run (Call.refcount h).body =
      (.ok ⟨.i32 (Int32.ofNat (s.heap.count ref)), []⟩, s.countCall) := by
    simp only [Call.body, run_bind, run_refcount, resolved, run_pure]
    rfl
  simp only [perform, guarded, hrun]

/-- What has been destroyed stays destroyed. -/
theorem Leads.stays_destroyed (leads : s.Leads t) (sound : s.Sound) {n : Nat} {object : Object}
    (found : s.heap.objects[n]? = some object) (dead : object.payload = none) :
    ∃ later : Object, t.heap.objects[n]? = some later ∧ later.payload = none := by
  have later := (leads.advanced sound).later
  have hlt := (List.getElem?_eq_some_iff.mp found).1
  have hlt' := Nat.lt_of_lt_of_le hlt later.length_le
  have hdead := later.payload n hlt ((Heap.payloadAt_of_getElem? found).trans dead)
  refine ⟨t.heap.objects[n], List.getElem?_eq_getElem hlt', ?_⟩
  rwa [Heap.payloadAt_of_getElem? (List.getElem?_eq_getElem hlt')] at hdead

theorem Sound.bound_alive (sound : s.Sound) {h : Handle} {ref : Ref}
    (hb : s.handles.bound? h = some ref) :
    ∃ object : Object, s.heap.objects[ref.number]? = some object ∧ object.payload.isSome := by
  have holds := sound.holds_bound hb
  have found := List.getElem?_eq_getElem holds.has.lt_length
  have alive := holds.alive
  rw [Heap.payloadAt_of_getElem? found] at alive
  exact ⟨_, found, alive⟩

/-- The faults that speak of an object that is gone are faults of states that do not arise. -/
theorem Sound.unreported (sound : s.Sound) {call : Call} (exported : call.Exported) {e : Failure}
    (hr : s.countCall.run call.body = (.error e, t)) (n : Nat) :
    e.toFault ≠ .objectDestroyed n ∧ e.toFault ≠ .overRelease n := by
  have meets := Call.body_meets sound.countCall call exported
  have unnamed := (meets.bad_of_run hr).unnamed
  constructor
  · intro he
    rw [he] at unnamed
    cases unnamed
  · intro he
    rw [he] at unnamed
    cases unnamed

theorem reference_counts_exact (reachable : s.Reachable) : s.Accounted := by
  have sound := reachable.sound
  refine ⟨?_, ?_, sound.heap.destroyed_eq, ?_, ?_, ?_, ?_⟩
  · intro n object found
    rw [← sound.countAt_eq]
    simp [Heap.countAt, found]
  · intro n object found
    rw [← Heap.payloadAt_of_getElem? found]
    exact sound.destroyed_iff n
  · intro t leads n object found dead
    exact leads.stays_destroyed sound found dead
  · intro h ref hb
    exact sound.bound_alive hb
  · intro call exported e t hr n
    exact sound.unreported exported hr n
  · intro thread h ref hb hlt
    refine ⟨_, perform_refcount hb thread, ?_⟩
    rw [← sound.countAt_eq, ← Heap.count_eq_countAt]
    exact Int32.toInt_ofNat_of_lt (by omega)

/-- A task with one handle that stands twice in an array has three references. -/
theorem pushed_task_accounted :
    let array : Handle := ⟨0x100000002⟩
    let task : Wire := .handle ⟨0x100000001⟩
    let s := performAll {} [(0, .createAs .task), (0, .newCollection .array), (0, .push array task),
      (1, .push array task)]
    s.references 0 = 3 ∧ s.Accounted := by
  refine ⟨by decide +kernel, reference_counts_exact (Leads.refl.performAll fun call hcall => ?_)⟩
  simp only [List.mem_cons, List.not_mem_nil, or_false] at hcall
  rcases hcall with rfl | rfl | rfl | rfl
  · exact .of_symbol "ITask_Create" [] rfl
  · exact .of_symbol "idlbridge_array_new" [] rfl
  all_goals exact .of_symbol "idlbridge_array_push" [.handle _, .wire _] rfl

end State

end ObjectBoundary
