import ObjectBoundary.Proofs.Handle.History
import ObjectBoundary.Proofs.Object.Reach

/-!
# Sound states

In a sound state the handle table is well formed, the counts of the heap include the live handles,
and the task model is registered before there is any object of an interface. The requests that every
other request is made of keep a state sound: making an object, giving out a handle and ending one.
`Refused` says what a request leaves behind that fails, and `Lent` what one does that hands a value
to the caller.
-/

namespace ObjectBoundary

namespace Fault

/-- The faults that speak of an object that is gone. -/
def namesObject : Fault → Bool
  | .objectDestroyed _ | .overRelease _ => true
  | _ => false

theorem code_ne_none (fault : Fault) : fault.code ≠ .none := by
  cases fault <;> exact fun h => by cases h

end Fault

namespace State

/-- All references between handles and objects are counted; `made` lists the objects that were just
made and may have none. -/
structure SoundWith (made : List Nat) (s : State) : Prop where
  table : s.handles.WellFormed
  has : ∀ {h ref}, s.handles.bound? h = some ref → s.heap.Has ref
  heap : s.heap.Sound s.handles.share made
  model : s.Registered ∨
    s.Unregistered ∧ ∀ ref, s.heap.Has ref → ref.tag.isInterface = false

abbrev Sound : State → Prop := SoundWith []

/-- Everything apart from objects, handles and counters is the same. -/
structure SameSetting (s t : State) : Prop where
  registry_eq : t.registry = s.registry
  factories_eq : t.factories = s.factories
  taskIds_eq : t.taskIds = s.taskIds
  options_eq : t.options = s.options
  files_eq : t.files = s.files
  now_eq : t.now = s.now
  log_eq : t.log = s.log
  lastErrors_eq : t.lastErrors = s.lastErrors

/-- A request has failed: no payload was changed and the same handles are live. -/
structure Refused (s : State) (e : Failure) (t : State) : Prop where
  sound : t.Sound
  unnamed : e.toFault.namesObject = false
  kept : s.heap.Kept t.heap
  bound : ∀ k, t.handles.bound? k = s.handles.bound? k
  setting : s.SameSetting t

/-- A value has been handed out: no payload was changed, and if there is a handle in the value, then
it is the only new one. -/
structure Lent (s : State) (w : Wire) (t : State) : Prop where
  sound : t.Sound
  grown : s.heap.Grown t.heap
  setting : s.SameSetting t
  bound : w.handle? = none ∧ (∀ k, t.handles.bound? k = s.handles.bound? k) ∨
    ∃ h ref, w.handle? = some h ∧ s.handles.bound? h = none ∧
      ∀ k, t.handles.bound? k = if k = h then some ref else s.handles.bound? k
  /-- It was never given out before. -/
  new : ∀ h, w.handle? = some h → ¬ s.handles.Given h

/-- Objects may have been made, and nothing else has changed that can be seen. -/
structure Quiet (s t : State) : Prop where
  grown : s.heap.Grown t.heap
  handles_eq : t.handles = s.handles
  setting : s.SameSetting t

variable {s t u : State} {made : List Nat} {e : Failure} {w : Wire}

theorem SameSetting.refl (s : State) : s.SameSetting s :=
  ⟨rfl, rfl, rfl, rfl, rfl, rfl, rfl, rfl⟩

theorem SameSetting.trans (first : s.SameSetting t) (second : t.SameSetting u) :
    s.SameSetting u where
  registry_eq := second.registry_eq.trans first.registry_eq
  factories_eq := second.factories_eq.trans first.factories_eq
  taskIds_eq := second.taskIds_eq.trans first.taskIds_eq
  options_eq := second.options_eq.trans first.options_eq
  files_eq := second.files_eq.trans first.files_eq
  now_eq := second.now_eq.trans first.now_eq
  log_eq := second.log_eq.trans first.log_eq
  lastErrors_eq := second.lastErrors_eq.trans first.lastErrors_eq

theorem SameSetting.registered (same : s.SameSetting t) (registered : s.Registered) :
    t.Registered :=
  ⟨same.taskIds_eq.trans registered.taskIds_eq, same.registry_eq.trans registered.registry_eq,
    same.factories_eq.trans registered.factories_eq⟩

theorem SameSetting.unregistered (same : s.SameSetting t) (unregistered : s.Unregistered) :
    t.Unregistered :=
  ⟨same.taskIds_eq.trans unregistered.taskIds_eq, same.registry_eq.trans unregistered.registry_eq,
    same.factories_eq.trans unregistered.factories_eq⟩

theorem Quiet.refl (s : State) : s.Quiet s := ⟨Heap.Grown.refl _, rfl, .refl s⟩

theorem Quiet.trans (first : s.Quiet t) (second : t.Quiet u) : s.Quiet u :=
  ⟨first.grown.trans second.grown, second.handles_eq.trans first.handles_eq,
    first.setting.trans second.setting⟩

theorem Quiet.refused (quiet : s.Quiet t) (refused : t.Refused e u) : s.Refused e u where
  sound := refused.sound
  unnamed := refused.unnamed
  kept := quiet.grown.kept.trans refused.kept
  bound k := by rw [refused.bound, quiet.handles_eq]
  setting := quiet.setting.trans refused.setting

theorem Quiet.lent (quiet : s.Quiet t) (lent : t.Lent w u) : s.Lent w u where
  sound := lent.sound
  grown := quiet.grown.trans lent.grown
  setting := quiet.setting.trans lent.setting
  bound := quiet.handles_eq ▸ lent.bound
  new := quiet.handles_eq ▸ lent.new

theorem Refused.refl (sound : s.Sound) (unnamed : e.toFault.namesObject = false) :
    s.Refused e s :=
  ⟨sound, unnamed, Heap.Kept.refl _, fun _ => rfl, .refl s⟩

/-- A value without a handle is handed out by doing nothing. -/
theorem Lent.plain (sound : s.Sound) (plain : w.handle? = none) : s.Lent w s :=
  ⟨sound, Heap.Grown.refl _, .refl s, .inl ⟨plain, fun _ => rfl⟩,
    fun _ some => by cases plain.symm.trans some⟩

/-! ### What a sound state holds -/

theorem sound_empty : ({} : State).Sound where
  table := HandleTable.wellFormed_empty
  has := by
    intro h ref hb
    rw [HandleTable.wellFormed_empty.bound?_iff] at hb
    simp at hb
  heap := Heap.sound_empty.congr fun n => by simp [HandleTable.share]
  model := .inr ⟨⟨rfl, rfl, rfl⟩, fun ref has => by simp [Heap.Has, Heap.tagAt] at has⟩

theorem SoundWith.holds_bound (sound : s.SoundWith made) {h : Handle} {ref : Ref}
    (hb : s.handles.bound? h = some ref) : s.heap.Holds ref := by
  have hs := sound.table.bound?_iff.mp hb
  exact sound.heap.holds_held (sound.has hb) (HandleTable.share_pos hs)

/-- Objects of interfaces are made only once the task model is registered. -/
theorem SoundWith.registered (sound : s.SoundWith made) {ref : Ref} (has : s.heap.Has ref)
    (interface : ref.tag.isInterface) : s.Registered := by
  rcases sound.model with registered | ⟨_, none⟩
  · exact registered
  · rw [none ref has] at interface
    cases interface

/-- A state is sound when its handles and its heap are and no object of an interface is new. -/
theorem SoundWith.of_setting {made' : List Nat} (sound : s.SoundWith made)
    (same : s.SameSetting t) (table : t.handles.WellFormed)
    (has : ∀ {h ref}, t.handles.bound? h = some ref → t.heap.Has ref)
    (heap : t.heap.Sound t.handles.share made')
    (old : ∀ ref, t.heap.Has ref → ref.tag.isInterface → s.heap.Has ref ∨ s.Registered) :
    t.SoundWith made' := by
  refine ⟨table, has, heap, ?_⟩
  rcases sound.model with registered | ⟨unregistered, none⟩
  · exact .inl (same.registered registered)
  · by_cases hnew : ∃ ref, t.heap.Has ref ∧ ref.tag.isInterface
    · obtain ⟨ref, hhas, hinterface⟩ := hnew
      rcases old ref hhas hinterface with hold | registered
      · rw [none ref hold] at hinterface
        cases hinterface
      · exact .inl (same.registered registered)
    · refine .inr ⟨same.unregistered unregistered, fun ref hhas => ?_⟩
      cases hinterface : ref.tag.isInterface with
      | false => rfl
      | true => exact absurd ⟨ref, hhas, hinterface⟩ hnew

/-- The heap changed in place, and the handles stayed. -/
theorem SoundWith.onHeap {made' : List Nat} {heap : Heap} (sound : s.SoundWith made)
    (evolves : s.heap.Later heap) (length_eq : heap.objects.length = s.heap.objects.length)
    (hsound : heap.Sound s.handles.share made') : SoundWith made' { s with heap } := by
  refine sound.of_setting ⟨rfl, rfl, rfl, rfl, rfl, rfl, rfl, rfl⟩ sound.table
    (fun hb => (sound.has hb).evolves evolves) hsound ?_
  intro ref hhas _
  exact .inl (hhas.of_evolves evolves length_eq)

/-- Counters, ids and the surroundings do not matter. -/
theorem SoundWith.of_eq (sound : s.SoundWith made) (heap : t.heap = s.heap)
    (handles : t.handles = s.handles) (registry : t.registry = s.registry)
    (factories : t.factories = s.factories) (taskIds : t.taskIds = s.taskIds) :
    t.SoundWith made := by
  refine ⟨handles ▸ sound.table, ?_, ?_, ?_⟩
  · rw [handles, heap]
    exact sound.has
  · rw [handles, heap]
    exact sound.heap
  · rcases sound.model with registered | ⟨unregistered, none⟩
    · exact .inl ⟨taskIds.trans registered.taskIds_eq, registry.trans registered.registry_eq,
        factories.trans registered.factories_eq⟩
    · rw [heap]
      exact .inr ⟨⟨taskIds.trans unregistered.taskIds_eq,
        registry.trans unregistered.registry_eq,
        factories.trans unregistered.factories_eq⟩, none⟩

/-- What the payload of an object refers to is no longer without references. -/
theorem SoundWith.settle_owned {made' : List Nat} (sound : s.SoundWith made) {m : Nat}
    {p : Payload} (hp : s.heap.payloadAt m = some p)
    (owned : ∀ n ∈ made, n ∈ made' ∨ ∃ ref ∈ p.refs, ref.number = n) : s.SoundWith made' := by
  refine ⟨sound.table, sound.has, sound.heap.settle fun n hn _ => ?_, sound.model⟩
  rcases owned n hn with hmade | ⟨ref, hr, rfl⟩
  · exact .inl hmade
  · have hpos := Heap.owns_pos hp hr
    have hcount := sound.heap.counts ref.number
    exact .inr (by omega)

/-! ### Making and replacing objects -/

def withNew (s : State) (tag : Tag) (p : Payload) : State :=
  { s with heap := (s.heap.create tag p).2 }

theorem run_create (s : State) (tag : Tag) (p : Payload) :
    s.run (Op.create tag p) = (.ok ⟨s.heap.objects.length, tag⟩, s.withNew tag p) := rfl

theorem quiet_withNew (s : State) (tag : Tag) (p : Payload) : s.Quiet (s.withNew tag p) :=
  ⟨Heap.Grown.create s.heap tag p, rfl, ⟨rfl, rfl, rfl, rfl, rfl, rfl, rfl, rfl⟩⟩

theorem SoundWith.withNew (sound : s.SoundWith made) {tag : Tag} {p : Payload}
    (fits : p.Fits tag) (holds : ∀ ref ∈ p.refs, s.heap.Holds ref)
    (registered : tag.isInterface → s.Registered) :
    (s.withNew tag p).SoundWith (s.heap.objects.length :: made) := by
  have quiet := quiet_withNew s tag p
  refine sound.of_setting quiet.setting sound.table (fun hb => (sound.has hb).evolves quiet.grown)
    (sound.heap.create fits holds) ?_
  intro ref has interface
  unfold Heap.Has State.withNew at has
  rw [Heap.tagAt_create] at has
  by_cases hnew : ref.number = s.heap.objects.length
  · rw [if_pos hnew] at has
    cases has
    exact .inr (registered interface)
  · rw [if_neg hnew] at has
    exact .inl has

theorem holds_withNew (s : State) (tag : Tag) (p : Payload) :
    (s.withNew tag p).heap.Holds ⟨s.heap.objects.length, tag⟩ := by
  refine ⟨?_, ?_⟩
  · simp [Heap.Has, State.withNew, Heap.tagAt_create]
  · simp [State.withNew, Heap.payloadAt_create]

theorem payloadAt_withNew (s : State) (tag : Tag) (p : Payload) :
    (s.withNew tag p).heap.payloadAt s.heap.objects.length = some p := by
  simp [State.withNew, Heap.payloadAt_create]

/-- A state in which an object has another payload. -/
def withPayload (s : State) (ref : Ref) (p : Payload) : State :=
  { s with heap := s.heap.replace ref p }

theorem run_replace (s : State) (ref : Ref) (p : Payload) :
    s.run (Op.replace ref p) = (.ok (), s.withPayload ref p) := rfl

theorem withPayload_self {ref : Ref} {p : Payload} (hp : s.heap.payloadAt ref.number = some p)
    (plain : p.refs = []) : s.withPayload ref p = s := by
  rw [State.withPayload, Heap.replace_self hp plain]

theorem SoundWith.withPayload (sound : s.SoundWith made) {ref : Ref} {p : Payload}
    (holds : s.heap.Holds ref) (fits : p.Fits ref.tag)
    (refs : ∀ r ∈ p.refs, s.heap.Holds r) : (s.withPayload ref p).SoundWith made :=
  sound.onHeap (Heap.Later.replace holds.alive p) (Heap.length_replace s.heap ref p)
    (sound.heap.replace holds fits refs)

/-- An object with a live handle keeps the payload that it was given. -/
theorem SoundWith.payloadAt_withPayload (sound : s.SoundWith made) {h : Handle} {ref : Ref}
    {p : Payload} (hb : s.handles.bound? h = some ref) (fits : p.Fits ref.tag)
    (refs : ∀ r ∈ p.refs, s.heap.Holds r) :
    (s.withPayload ref p).heap.payloadAt ref.number = some p :=
  sound.heap.payloadAt_replace (sound.holds_bound hb) fits refs
    (HandleTable.share_pos (sound.table.bound?_iff.mp hb))

/-- A request has succeeded: the state is sound and nothing came back. -/
structure Advanced (s t : State) : Prop where
  sound : t.Sound
  later : s.heap.Later t.heap

theorem Advanced.refl (sound : s.Sound) : s.Advanced s := ⟨sound, Heap.Later.refl _⟩

theorem Advanced.trans (first : s.Advanced t) (second : t.Advanced u) : s.Advanced u :=
  ⟨second.sound, first.later.trans second.later⟩

theorem Lent.advanced (lent : s.Lent w t) : s.Advanced t := ⟨lent.sound, lent.grown.kept.later⟩

theorem Refused.advanced (refused : s.Refused e t) : s.Advanced t :=
  ⟨refused.sound, refused.kept.later⟩

theorem Sound.advanced_withPayload (sound : s.Sound) {ref : Ref} {p : Payload}
    (holds : s.heap.Holds ref) (fits : p.Fits ref.tag)
    (refs : ∀ r ∈ p.refs, s.heap.Holds r) : s.Advanced (s.withPayload ref p) :=
  ⟨sound.withPayload holds fits refs, Heap.Later.replace holds.alive p⟩

end State

end ObjectBoundary
