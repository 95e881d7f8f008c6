import ObjectBoundary.Proofs.Bookkeeping
import ObjectBoundary.Proofs.Entry.Effects

/-!
# Handles that are new

A handle that is given out was never live before, in no state on the way; so it is neither one of
the live handles nor the result of another call.
-/

namespace ObjectBoundary

open Op State

namespace State

variable {s t : State} {h : Handle}

/-- No call forgets a handle that was given out. -/
theorem given_perform (sound : s.Sound) (thread : Nat) (call : Call) (given : s.handles.Given h) :
    (s.perform thread call).2.handles.Given h := by
  rcases perform_cases s thread call with heq | heq | heq
  · rw [heq]
    exact given
  · rw [heq]
    exact given
  · have posted := Call.body_posted sound.countCall call
    have kept := (posted.remembers sound.table).2 h given
    rw [heq]
    rcases guarded_cases s thread ⟨call.sentinel, []⟩ call.body with
      ⟨a, t, hr, hg⟩ | ⟨e, t, hr, hg⟩
    · rw [hr] at kept
      rw [hg]
      exact kept
    · rw [hr] at kept
      rw [hg]
      exact kept

theorem Leads.given (leads : s.Leads t) (sound : s.Sound) (given : s.handles.Given h) :
    t.handles.Given h := by
  induction leads with
  | refl => exact given
  | step leads step ih =>
    cases step with
    | call thread exported => exact given_perform (leads.advanced sound).sound thread _ ih
    | surroundings options files now => exact ih

/-- The handle was live in none of the states from which this one may have come. -/
def Unheard (s : State) (h : Handle) : Prop :=
  ∀ r : State, r.Reachable → r.Leads s → r.handles.bound? h = none

theorem unheard_of_not_given (new : ¬ s.handles.Given h) : s.Unheard h := by
  intro r reachable leads
  cases bound : r.handles.bound? h with
  | none => rfl
  | some ref =>
    have sound := reachable.sound
    exact absurd (leads.given sound (sound.table.given_of_bound bound)) new

/-- The task model is there or is registered first, which gives out no handle. -/
theorem Sound.exists_run_taskIds (sound : s.Sound) :
    ∃ t, s.run Op.taskIds = (.ok TaskModel.ids, t) ∧ t.Sound ∧ t.handles = s.handles := by
  rcases sound.model with registered | ⟨unregistered, _⟩
  · exact ⟨s, registered.run_taskIds, sound, rfl⟩
  · exact ⟨s.withModel, unregistered.run_taskIds, sound.withModel, rfl⟩

end State

/-- A handle that a getter gives is live from now on, and was not given out before. -/
theorem Call.getter_new {s : State} {b : Binding} {kind : Kind} (sound : s.Sound)
    (access : b.access = .get kind) (h : Handle) :
    (Call.member b h []).body.Meets s
      (fun a t => ∃ w, a = ⟨.ofWire kind w, []⟩ ∧ w.kind? = some kind ∧
        ∀ g, w.handle? = some g → ¬ s.handles.Given g ∧ ∃ ref, t.handles.bound? g = some ref)
      fun _ _ => True := by
  obtain ⟨r, found, sound', handles_eq⟩ := sound.exists_run_taskIds
  have fixed : b.result? = some kind := by simp only [Binding.result?, access]
  have ran : (b.run h []).Meets s
      (fun found t => ∃ w, found = some w ∧ w.kind? = some kind ∧ r.Lent w t)
      fun _ _ => True := by
    refine meets_run found ?_
    rw [access]
    have read := (getProperty_meets sound' h (b.role.id TaskModel.ids) b.member).imp
      (fun _ _ made => made.1) fun _ _ _ => trivial
    refine read.bind fun w t lent => ?_
    unfold expectKind
    split
    · next kind_eq => exact meets_pure ⟨w, rfl, kind_eq, lent⟩
    · exact meets_fail trivial
  refine ran.bind ?_
  rintro found t ⟨w, rfl, kind_eq, lent⟩
  rw [fixed]
  refine meets_pure ⟨w, rfl, kind_eq, fun g handle => ⟨handles_eq ▸ lent.new g handle, ?_⟩⟩
  rcases lent.bound with ⟨plain, _⟩ | ⟨h, ref, same, _, bound⟩
  · cases plain.symm.trans handle
  · cases same.symm.trans handle
    exact ⟨ref, by rw [bound, if_pos rfl]⟩

namespace State

variable {s : State}

/-- The handle that a getter gives was live in no state before. -/
theorem getter_unheard (reachable : s.Reachable) (thread : Nat) {b : Binding} (h : Handle)
    {g : Handle} (access : b.access = .get .handle) :
    let got := s.perform thread (.member b h [])
    (got.2.lastErrors thread).code = .none → got.1.reply = .handle g →
      s.Unheard g ∧ ∃ ref, got.2.handles.bound? g = some ref := by
  intro got succeeded answered
  have new := Call.getter_new reachable.sound.countCall access h
  rcases guarded_cases s thread ⟨(Call.member b h []).sentinel, []⟩ (Call.member b h []).body with
    ⟨a, t, hr, hg⟩ | ⟨e, t, hr, hg⟩
  · obtain ⟨w, rfl, kind_eq, live⟩ := new.ok_of_run hr
    have got_eq : got = _ := hg
    rw [got_eq] at answered ⊢
    cases answered
    obtain ⟨fresh, ref, bound⟩ := live w.handleBits (if_pos kind_eq)
    exact ⟨unheard_of_not_given fresh, ref, bound⟩
  · have got_eq : got = _ := hg
    rw [got_eq] at succeeded
    exact absurd succeeded (code_recordFailure_ne_none t thread e)

end State

end ObjectBoundary
