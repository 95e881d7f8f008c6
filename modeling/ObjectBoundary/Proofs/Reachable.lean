import ObjectBoundary.Proofs.Entry.Call

/-!
# Reachable states

The states that calls lead to, in any order and from any threads, while options, files and the clock
change between calls. All of them are sound.
-/

namespace ObjectBoundary.State

/-- One thing that happens: a thread makes an exported call, or the surroundings change. -/
inductive Step (s : State) : State → Prop where
  | call (thread : Nat) {call : Call} (exported : call.Exported) :
      Step s (s.perform thread call).2
  | surroundings (options : Options) (files : Files) (now : Int) :
      Step s { s with options, files, now }

/-- A state follows from another one, step by step. -/
inductive Leads (s : State) : State → Prop where
  | refl : Leads s s
  | step {t u : State} : Leads s t → t.Step u → Leads s u

/-- A state follows from the first one. -/
abbrev Reachable (s : State) : Prop := Leads {} s

variable {s t : State} {call : Call}

theorem Sound.countCall (sound : s.Sound) : s.countCall.Sound :=
  sound.of_eq rfl rfl rfl rfl rfl

/-- The guard records how a request ends and changes nothing else. -/
theorem guarded_cases {α : Type} (s : State) (thread : Nat) (sentinel : α) (body : Op α) :
    (∃ a t, s.countCall.run body = (.ok a, t) ∧
        s.guarded thread sentinel body = (a, t.setLastError thread {})) ∨
      ∃ e t, s.countCall.run body = (.error e, t) ∧
        s.guarded thread sentinel body = (sentinel, t.recordFailure thread e) := by
  unfold guarded
  cases hr : s.countCall.run body with
  | mk result t =>
    cases result with
    | ok a => exact .inl ⟨a, t, rfl, rfl⟩
    | error e => exact .inr ⟨e, t, rfl, rfl⟩

/-- A success clears the record of its thread. -/
theorem code_setLastError_clear (s : State) (thread : Nat) :
    ((s.setLastError thread {}).lastErrors thread).code = .none := by
  simp [setLastError]

/-- A failure leaves its code on the record of its thread. -/
theorem code_recordFailure_ne_none (s : State) (thread : Nat) (e : Failure) :
    ((s.recordFailure thread e).lastErrors thread).code ≠ .none := by
  simpa [recordFailure, setLastError, LastError.ofFault] using e.toFault.code_ne_none

theorem advanced_guarded (sound : s.Sound) (thread : Nat) (exported : call.Exported)
    (sentinel : Answer) : s.Advanced (s.guarded thread sentinel call.body).2 := by
  have meets := Call.body_meets sound.countCall call exported
  rcases guarded_cases s thread sentinel call.body with ⟨a, t, hr, hg⟩ | ⟨e, t, hr, hg⟩
  · have advanced := meets.ok_of_run hr
    rw [hg]
    exact ⟨advanced.sound.of_eq rfl rfl rfl rfl rfl, advanced.later⟩
  · have advanced := (meets.bad_of_run hr).advanced
    rw [hg]
    exact ⟨advanced.sound.of_eq rfl rfl rfl rfl rfl, advanced.later⟩

/-- The calls about the last error pass the guard by. -/
theorem perform_cases (s : State) (thread : Nat) (call : Call) :
    (s.perform thread call).2 = s ∨ (s.perform thread call).2 = s.setLastError thread {} ∨
      s.perform thread call = s.guarded thread ⟨call.sentinel, []⟩ call.body := by
  unfold perform
  split
  · exact .inl rfl
  · exact .inl rfl
  · exact .inr (.inl rfl)
  · exact .inr (.inr rfl)

theorem advanced_perform (sound : s.Sound) (thread : Nat) (exported : call.Exported) :
    s.Advanced (s.perform thread call).2 := by
  rcases perform_cases s thread call with heq | heq | heq
  · rw [heq]
    exact .refl sound
  · rw [heq]
    exact ⟨sound.of_eq rfl rfl rfl rfl rfl, Heap.Later.refl _⟩
  · rw [heq]
    exact advanced_guarded sound thread exported _

theorem Step.advanced (step : s.Step t) (sound : s.Sound) : s.Advanced t := by
  cases step with
  | call thread exported => exact advanced_perform sound thread exported
  | surroundings options files now =>
    exact ⟨sound.of_eq rfl rfl rfl rfl rfl, Heap.Later.refl _⟩

theorem Leads.advanced (leads : s.Leads t) (sound : s.Sound) : s.Advanced t := by
  induction leads with
  | refl => exact .refl sound
  | step _ step ih => exact ih.trans (step.advanced ih.sound)

theorem Reachable.sound (reachable : s.Reachable) : s.Sound :=
  (Leads.advanced reachable sound_empty).sound

theorem Leads.performAll {calls : List (Nat × Call)} (leads : s.Leads t)
    (exported : ∀ call ∈ calls, call.2.Exported) : s.Leads (t.performAll calls) := by
  induction calls generalizing t with
  | nil => exact leads
  | cons call calls ih =>
    have first : s.Leads (t.perform call.1 call.2).2 :=
      leads.step (.call call.1 (exported call (by simp)))
    exact ih first fun c hc => exported c (by simp [hc])

end ObjectBoundary.State
