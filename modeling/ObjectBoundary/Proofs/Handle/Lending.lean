import ObjectBoundary.Proofs.Sound

/-!
# Giving out handles and ending them

In a sound state a handle is given out or refused, and what is refused leaves nothing behind. A
handle that was given out can be ended again, which undoes it.
-/

namespace ObjectBoundary

namespace State

variable {s t u : State} {ref : Ref} {h : Handle} {w : Wire} {e : Failure} {made : List Nat}

theorem SoundWith.loosen (sound : s.Sound) (made : List Nat) : s.SoundWith made :=
  ⟨sound.table, sound.has, sound.heap.settle (fun _ hn => by cases hn), sound.model⟩

/-- A new handle takes a reference to its object, which then is no longer without any. -/
theorem SoundWith.granted (sound : s.SoundWith [ref.number]) (holds : s.heap.Holds ref)
    {limit : Nat} {handles : HandleTable}
    (ok : s.handles.issue limit ref = .ok (h, handles)) : s.Lent (.handle h) (s.granted ref handles)
    := by
  have gives := sound.table.issue_gives ok
  have wf := sound.table.issue ok
  have hbound := gives.bound?_eq sound.table wf
  have grown := Heap.Grown.retain s.heap ref
  have retained : (s.heap.retain ref).Sound handles.share [ref.number] := by
    have counted := sound.heap.retainAll fun r (hr : r ∈ [ref]) =>
      (List.mem_singleton.mp hr) ▸ holds.alive
    exact counted.congr fun n => by simp [sound.table.share_issue ok n]
  have setting : s.SameSetting (s.granted ref handles) := ⟨rfl, rfl, rfl, rfl, rfl, rfl, rfl, rfl⟩
  have new : ∀ k, (Wire.handle h).handle? = some k → ¬ s.handles.Given k := by
    intro k same
    cases same
    exact (gives.given_iff wf h).2
  refine ⟨?_, grown, setting, .inr ⟨h, ref, rfl, gives.bound?_fresh sound.table, hbound⟩, new⟩
  refine sound.of_setting setting wf ?_ (retained.settle ?_) ?_
  · intro k r hb
    simp only [State.granted] at hb
    rw [hbound] at hb
    by_cases hk : k = h
    · rw [if_pos hk] at hb
      cases hb
      exact holds.has.evolves grown
    · rw [if_neg hk] at hb
      exact (sound.has hb).evolves grown
  · intro n hn _
    rw [List.mem_singleton.mp hn]
    have hcount := retained.counts ref.number
    rw [sound.table.share_issue ok, if_pos rfl] at hcount
    exact .inr (by omega)
  · intro r hhas _
    exact .inl (hhas.of_evolves grown (Heap.length_retainAll s.heap [ref]))

/-- Ending a handle gives its reference back. -/
theorem SoundWith.revoked (sound : s.Sound) {expected : Option Tag} {handles : HandleTable}
    (ok : s.handles.release h expected = .ok (ref, handles)) : (s.revoked ref handles).Sound := by
  have takes := sound.table.release_takes ok
  have wf := sound.table.release ok
  have kept := Heap.Kept.releaseAll s.heap [ref]
  have length_eq := Heap.length_releaseAll s.heap [ref]
  have released : (s.heap.releaseAll [ref]).Sound handles.share [] :=
    Heap.Sound.releaseAll (sound.heap.congr fun n => by
      simp [HandleTable.share_release ok n])
  refine sound.of_setting ⟨rfl, rfl, rfl, rfl, rfl, rfl, rfl, rfl⟩ wf ?_ released ?_
  · intro k r hb
    simp only [State.revoked] at hb
    rw [takes.bound?_eq sound.table wf] at hb
    by_cases hk : k = h
    · rw [if_pos hk] at hb
      cases hb
    · rw [if_neg hk] at hb
      exact (sound.has hb).evolves kept
  · intro r hhas _
    exact .inl (hhas.of_evolves kept length_eq)

/-- A handle has been ended, and no payload was changed. -/
structure Ended (s : State) (h : Handle) (t : State) : Prop where
  sound : t.Sound
  kept : s.heap.Kept t.heap
  setting : s.SameSetting t
  bound : ∀ k, t.handles.bound? k = if k = h then none else s.handles.bound? k

/-- Ending a handle that was lent undoes the loan, whatever was refused in between. -/
theorem Lent.undo (lent : s.Lent w t) (refused : t.Refused e u) :
    w.handle? = none ∧ s.Refused e u ∨
      ∃ h ref, w.handle? = some h ∧ u.handles.bound? h = some ref ∧
        ∀ v, u.Ended h v → s.Refused e v := by
  have kept := lent.grown.kept.trans refused.kept
  have setting := lent.setting.trans refused.setting
  rcases lent.bound with ⟨hplain, hsame⟩ | ⟨h, ref, hw, hfresh, hbound⟩
  · exact .inl ⟨hplain, refused.sound, refused.unnamed, kept,
      fun k => by rw [refused.bound, hsame], setting⟩
  · refine .inr ⟨h, ref, hw, by rw [refused.bound, hbound, if_pos rfl], fun v ended => ?_⟩
    refine ⟨ended.sound, refused.unnamed, kept.trans ended.kept, fun k => ?_,
      setting.trans ended.setting⟩
    rw [ended.bound, refused.bound, hbound]
    by_cases hk : k = h
    · rw [if_pos hk, hk, hfresh]
    · rw [if_neg hk, if_neg hk]

end State

namespace Op

open State

variable {s : State} {ref : Ref} {h : Handle}

theorem tableFault_unnamed (r : Registry) (e : HandleError) :
    (tableFault r e).namesObject = false := by
  cases e <;> rfl

theorem issue_meets (sound : s.SoundWith [ref.number]) (holds : s.heap.Holds ref) :
    (issue ref).Meets s (fun h t => s.Lent (.handle h) t)
      fun e t => s.Refused e t ∧ ∃ n, e = .fault (.handleLimit n) := by
  unfold Meets
  rw [run_issue]
  cases hi : s.handles.issue s.options.maxLiveHandles ref with
  | ok given => exact sound.granted holds hi
  | error cause =>
    obtain ⟨n, rfl⟩ := HandleTable.issue_eq_error hi
    have kept := Heap.Kept.collect s.heap ref
    refine ⟨⟨?_, rfl, kept, fun _ => rfl, ⟨rfl, rfl, rfl, rfl, rfl, rfl, rfl, rfl⟩⟩, n, rfl⟩
    exact sound.onHeap kept.later (Heap.length_collect s.heap ref) sound.heap.collect

theorem release_meets (sound : s.Sound) (expected : Option Tag) :
    (release h expected).Meets s (fun _ t => s.Ended h t) s.Refused := by
  unfold Meets
  rw [run_release]
  cases hr : s.handles.release h expected with
  | ok given =>
    obtain ⟨ref, handles⟩ := given
    have takes := sound.table.release_takes hr
    exact ⟨sound.revoked hr, Heap.Kept.releaseAll s.heap [ref],
      ⟨rfl, rfl, rfl, rfl, rfl, rfl, rfl, rfl⟩,
      takes.bound?_eq sound.table (sound.table.release hr)⟩
  | error cause =>
    have quiet : s.Quiet (s.noticed cause) := by
      cases cause <;> exact ⟨Heap.Grown.refl _, rfl, ⟨rfl, rfl, rfl, rfl, rfl, rfl, rfl, rfl⟩⟩
    have still : (s.noticed cause).Sound := by
      cases cause <;> exact sound.of_eq rfl rfl rfl rfl rfl
    exact quiet.refused (.refl still (tableFault_unnamed _ _))

/-- A live handle can be ended. -/
theorem run_release_live (sound : s.Sound) (hb : s.handles.bound? h = some ref) :
    ∃ n t, s.run (release h none) = (.ok n, t) ∧ s.Ended h t := by
  obtain ⟨handles, hr⟩ := HandleTable.release_of_bound hb
  have hrun : s.run (release h none) = (.ok (s.heap.count ref - 1), s.revoked ref handles) := by
    rw [run_release, hr]
  exact ⟨_, _, hrun, (release_meets sound none).ok_of_run hrun⟩

/-- A handle to a new object. -/
theorem issueNew_meets (sound : s.Sound) {tag : Tag} {p : Payload} (fits : p.Fits tag)
    (holds : ∀ r ∈ p.refs, s.heap.Holds r) (registered : tag.isInterface → s.Registered) :
    (issueNew tag p).Meets s (fun h t => s.Lent (.handle h) t) s.Refused := by
  have made := sound.withNew fits holds registered
  have quiet := quiet_withNew s tag p
  have issued := issue_meets made (holds_withNew s tag p)
  refine meets_run (run_create s tag p) ?_
  exact issued.imp (fun h t lent => quiet.lent lent) (fun e t refused => quiet.refused refused.1)

/-- What was lent and does not reach the caller is taken back. -/
theorem discard_undoes {t u : State} {w : Wire} {e : Failure} (lent : s.Lent w t)
    (refused : t.Refused e u) :
    (discard w).Meets u (fun _ v => s.Refused e v) (fun _ _ => False) := by
  unfold discard
  rcases lent.undo refused with ⟨hplain, refused⟩ | ⟨h, ref, hw, hb, undone⟩
  · rw [hplain]
    exact meets_pure refused
  · rw [hw]
    obtain ⟨n, v, hrun, ended⟩ := run_release_live refused.sound hb
    unfold Meets
    simp only [run_tryCatch, run_bind, hrun, run_pure]
    exact undone v ended

end Op

end ObjectBoundary
