import ObjectBoundary.Proofs.Entry.Effects

/-!
# The lists of projects and managers in full

Everything on a list is there, so what is looked up along a list is all of it.
-/

namespace ObjectBoundary

/-- What is looked up along a list, when all of it is there. -/
theorem map_fst_filterMap_found {α : Type} {look : Ref → Option α} {refs : List Ref}
    (found : ∀ ref ∈ refs, (look ref).isSome) :
    (refs.filterMap fun ref => (look ref).map (ref, ·)).map (·.1) = refs := by
  induction refs with
  | nil => rfl
  | cons ref refs ih =>
    obtain ⟨a, here⟩ := Option.isSome_iff_exists.mp (found ref List.mem_cons_self)
    simp [here, ih fun r member => found r (List.mem_cons_of_mem ref member)]

namespace State

variable {s : State} {n : Nat} {p : Project Ref} {m : Manager Ref} {ref : Ref}

theorem Sound.fits (sound : s.Sound) {payload : Payload} (old : s.heap.payloadAt n = some payload) :
    ∃ tag, payload.Fits tag := by
  obtain ⟨object, found, _⟩ := Option.bind_eq_some_iff.mp old
  exact ⟨object.tag, sound.heap.fits old (Heap.tagAt_of_getElem? found)⟩

theorem Sound.task_of_listed (sound : s.Sound) (old : s.heap.payloadAt n = some (.project p))
    (member : ref ∈ p.tasks) : ∃ t, s.heap.task? ref = some t := by
  obtain ⟨tag, fits⟩ := sound.fits old
  have holds := sound.heap.holds_owned old member
  obtain ⟨payload, alive⟩ := holds.payload
  have suits := sound.heap.fits_of_holds holds.has alive
  rw [fits.2 ref member] at suits
  obtain ⟨t, rfl⟩ := suits.exists_task
  exact ⟨t, Heap.task?_eq_some_iff.mpr alive⟩

theorem Sound.project_of_listed (sound : s.Sound) (old : s.heap.payloadAt n = some (.manager m))
    (member : ref ∈ m.projects) : ∃ p, s.heap.project? ref = some p := by
  obtain ⟨tag, fits⟩ := sound.fits old
  have holds := sound.heap.holds_owned old member
  obtain ⟨payload, alive⟩ := holds.payload
  have suits := sound.heap.fits_of_holds holds.has alive
  rw [fits.2 ref member] at suits
  obtain ⟨p, rfl⟩ := suits.exists_project
  exact ⟨p, Heap.project?_eq_some_iff.mpr alive⟩

/-- All tasks on the list of a project are its tasks. -/
theorem Sound.map_tasksOf (sound : s.Sound) (old : s.heap.payloadAt n = some (.project p)) :
    (s.heap.tasksOf p).map (·.1) = p.tasks :=
  map_fst_filterMap_found fun _ member =>
    Option.isSome_iff_exists.mpr (sound.task_of_listed old member)

/-- All projects on the list of a manager are its projects. -/
theorem Sound.map_projectsOf (sound : s.Sound) (old : s.heap.payloadAt n = some (.manager m)) :
    (s.heap.projectsOf m).map (·.1) = m.projects :=
  map_fst_filterMap_found fun _ member =>
    Option.isSome_iff_exists.mpr (sound.project_of_listed old member)

end State

end ObjectBoundary
