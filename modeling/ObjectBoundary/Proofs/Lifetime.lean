import ObjectBoundary.Proofs.Reachable

/-!
# Lifetimes

Counting references decides as well as following them would. In every reachable state an object has
not been destroyed exactly when a live handle leads to it, through entries of collections, lists of
tasks and lists of projects. Nothing is left when no handle is live.
-/

namespace ObjectBoundary.State

/-- The objects that live handles lead to. -/
inductive Reaches (s : State) : Nat → Prop where
  | bound {h : Handle} {ref : Ref} : s.handles.bound? h = some ref → Reaches s ref.number
  /-- A key or a value of a collection, or something inside it. -/
  | entry {n : Nat} {object : Object} {c : Collection} {ref : Ref} : Reaches s n →
      s.heap.objects[n]? = some object → object.payload = some (.collection c) →
      ref ∈ c.refs → Reaches s ref.number
  | task {n : Nat} {object : Object} {p : Project Ref} {ref : Ref} : Reaches s n →
      s.heap.objects[n]? = some object → object.payload = some (.project p) →
      ref ∈ p.tasks → Reaches s ref.number
  | project {n : Nat} {object : Object} {m : Manager Ref} {ref : Ref} : Reaches s n →
      s.heap.objects[n]? = some object → object.payload = some (.manager m) →
      ref ∈ m.projects → Reaches s ref.number

variable {s : State}

theorem Sound.reached_of_reaches (sound : s.Sound) {n : Nat} (reaches : s.Reaches n) :
    s.heap.Reached (0 < s.handles.share ·) n := by
  have payload : ∀ {m : Nat} {object : Object} {p : Payload}, s.heap.objects[m]? = some object →
      object.payload = some p → s.heap.payloadAt m = some p :=
    fun found hp => (Heap.payloadAt_of_getElem? found).trans hp
  induction reaches with
  | bound hb => exact .root (HandleTable.share_pos (sound.table.bound?_iff.mp hb))
  | entry _ found hp hr ih => exact .owned ih (payload found hp) hr
  | task _ found hp hr ih => exact .owned ih (payload found hp) hr
  | project _ found hp hr ih => exact .owned ih (payload found hp) hr

theorem Sound.reaches_of_reached (sound : s.Sound) {n : Nat}
    (reached : s.heap.Reached (0 < s.handles.share ·) n) : s.Reaches n := by
  induction reached with
  | root hn =>
    obtain ⟨h, ref, hb, rfl⟩ := sound.table.bound_of_share_pos hn
    exact .bound hb
  | @owned m p ref _ hp hr ih =>
    obtain ⟨object, found, hobject⟩ := Option.bind_eq_some_iff.mp hp
    cases p with
    | text value => cases hr
    | task content => cases hr
    | collection c => exact .entry ih found hobject hr
    | project q => exact .task ih found hobject hr
    | manager q => exact .project ih found hobject hr
    | scripted content =>
      cases sound.heap.fits hp (Heap.tagAt_of_getElem? found)

theorem Sound.alive_iff_reaches (sound : s.Sound) (n : Nat) :
    (s.heap.payloadAt n).isSome ↔ s.Reaches n :=
  (sound.heap.alive_iff_reached n).trans
    ⟨sound.reaches_of_reached, sound.reached_of_reaches⟩

/-- Without live handles nothing can be reached. -/
theorem Sound.not_reaches (sound : s.Sound) (unbound : s.handles.live = 0) (n : Nat) :
    ¬ s.Reaches n := by
  intro reaches
  induction reaches with
  | @bound h ref hb =>
    have live := sound.table.live_eq
    rw [unbound] at live
    have dead := List.countP_eq_zero.mp live.symm _
      (List.mem_of_getElem? (sound.table.bound?_iff.mp hb))
    exact dead rfl
  | entry _ _ _ _ ih => exact ih
  | task _ _ _ _ ih => exact ih
  | project _ _ _ _ ih => exact ih

/-- What a caller is told who asks for the number of live handles. -/
theorem perform_liveHandles (s : State) (thread : Nat) :
    (s.perform thread .liveHandles).1 = ⟨.size s.handles.live, []⟩ := rfl

/-- Exactly the objects that a caller can get at have not been destroyed, and a caller without
handles has left nothing behind. -/
theorem undestroyed_iff_reaches (reachable : s.Reachable) :
    (∀ n, (∃ object, s.heap.objects[n]? = some object ∧ object.payload.isSome) ↔ s.Reaches n) ∧
      ∀ thread, (s.perform thread .liveHandles).1 = ⟨.size 0, []⟩ →
        (∀ object ∈ s.heap.objects, object.payload = none) ∧
          s.heap.created = s.heap.destroyed := by
  have sound := reachable.sound
  refine ⟨fun n => ?_, fun thread told => ?_⟩
  · rw [← sound.alive_iff_reaches]
    cases found : s.heap.objects[n]? with
    | none => simp [Heap.payloadAt, found]
    | some object => simp [Heap.payloadAt, found]
  · rw [perform_liveHandles] at told
    have unbound : s.handles.live = 0 := by simpa using told
    have dead : ∀ object ∈ s.heap.objects, object.payload = none := by
      intro object hmem
      obtain ⟨n, found⟩ := List.getElem?_of_mem hmem
      have unreached := mt (sound.alive_iff_reaches n).mp
        (sound.not_reaches unbound n)
      simpa [Heap.payloadAt, found] using unreached
    refine ⟨dead, ?_⟩
    rw [sound.heap.created_eq, sound.heap.destroyed_eq]
    exact (List.countP_eq_length.mpr fun object hmem => by simp [dead object hmem]).symm

/-- An array that holds a task and a copy of itself is gone with its handle, and so is the task. -/
theorem released_array_destroyed :
    let task : Handle := ⟨0x100000001⟩
    let array : Handle := ⟨0x100000002⟩
    let s := performAll {} [(0, .createAs .task), (0, .newCollection .array),
      (0, .push array (.handle task)), (0, .push array (.handle array)), (0, .release task),
      (1, .release array)]
    s.heap.created = 2 ∧ (∀ object ∈ s.heap.objects, object.payload = none) ∧
      s.heap.created = s.heap.destroyed := by
  refine ⟨by decide +kernel, (undestroyed_iff_reaches (Leads.refl.performAll ?_)).2 0
    (by decide +kernel)⟩
  intro call hcall
  simp only [List.mem_cons, List.not_mem_nil, or_false] at hcall
  rcases hcall with rfl | rfl | rfl | rfl | rfl | rfl
  · exact .of_symbol "ITask_Create" [] rfl
  · exact .of_symbol "idlbridge_array_new" [] rfl
  · exact .of_symbol "idlbridge_array_push" [.handle _, .wire _] rfl
  · exact .of_symbol "idlbridge_array_push" [.handle _, .wire _] rfl
  · exact .of_symbol "idlbridge_release" [.handle _] rfl
  · exact .of_symbol "idlbridge_release" [.handle _] rfl

end ObjectBoundary.State
