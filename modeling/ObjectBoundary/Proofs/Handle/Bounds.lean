import ObjectBoundary.Proofs.Handle.History

/-!
# The bounds of the handle table

The numbers in a table after any uses of it, while the limit of live handles changes in between. The
counter, the free list, the generations and the indices stay within their widths. A slot whose
generations are used up is never given out again, a refused use leaves the table as it was, and no
use raises the number of live handles above the limit.
-/

namespace ObjectBoundary

open TablePast

namespace HandleTable

variable {table table' : HandleTable} {i : Nat} {slot : Slot} {ref : Ref} {h : Handle}
  {event : TableUse × Except Failure TableAnswer}

/-! ### What is well formed is within its bounds -/

/-- The counter and the free list say which slots are occupied and which can be used again, and
nothing that is counted or packed leaves its width. -/
structure InBounds (table : HandleTable) : Prop where
  live_eq : table.live = table.slots.countP (·.entry.isSome)
  live_le : table.live ≤ 2 ^ 32 - 2
  free_nodup : table.free.Nodup
  mem_free_iff : ∀ i : Nat, i ∈ table.free ↔ ∃ slot, table.slots[i]? = some slot ∧
    slot.entry = none ∧ slot.generation.toNat < 2 ^ 32 - 1
  /-- Ending a live handle neither overflows the generation nor takes the counter below zero. -/
  occupied : ∀ (i : Nat) (slot : Slot), table.slots[i]? = some slot → slot.entry.isSome →
    1 ≤ slot.generation.toNat ∧ slot.generation.toNat ≤ 2 ^ 32 - 2 ∧
      (slot.generation + 1).toNat = slot.generation.toNat + 1 ∧ 0 < table.live
  packed : ∀ (i : Nat) (slot : Slot), table.slots[i]? = some slot → i + 1 < 2 ^ 32 ∧
    (Handle.ofParts i.toUInt32 slot.generation).index = i ∧
    (Handle.ofParts i.toUInt32 slot.generation).generation = slot.generation

theorem lt_lastGeneration_iff {g : UInt32} : g < lastGeneration ↔ g.toNat < 2 ^ 32 - 1 :=
  UInt32.lt_iff_toNat_lt

theorem WellFormed.live_pos (wf : table.WellFormed) (found : table.slots[i]? = some slot)
    (occupied : slot.entry.isSome) : 0 < table.live := by
  rw [wf.live_eq]
  exact List.countP_pos_iff.mpr ⟨slot, List.mem_of_getElem? found, occupied⟩

theorem WellFormed.inBounds (wf : table.WellFormed) : table.InBounds where
  live_eq := wf.live_eq
  live_le := by
    have counted := List.countP_le_length (p := fun slot : Slot => slot.entry.isSome)
      (l := table.slots)
    have room : table.slots.length ≤ 2 ^ 32 - 2 := wf.length_le
    rw [wf.live_eq]
    omega
  free_nodup := wf.free_nodup
  mem_free_iff i := by
    rw [wf.mem_free]
    constructor
    · rintro ⟨g, found, lt⟩
      exact ⟨_, found, rfl, lt_lastGeneration_iff.mp lt⟩
    · rintro ⟨⟨g, entry⟩, found, rfl, lt⟩
      exact ⟨g, found, lt_lastGeneration_iff.mpr lt⟩
  occupied i slot found occupied := by
    obtain ⟨g, entry⟩ := slot
    obtain ⟨ref, rfl⟩ := Option.isSome_iff_exists.mp occupied
    have pos := UInt32.lt_iff_toNat_lt.mp (wf.generation_pos i _ found)
    have lt := wf.occupied_lt i g ref found
    have bound := lt_lastGeneration_iff.mp lt
    refine ⟨pos, ?_, toNat_succ_generation lt, wf.live_pos found occupied⟩
    dsimp only
    omega
  packed i slot found := by
    have small := wf.index_lt found
    exact ⟨small, Handle.index_ofParts small _, Handle.generation_ofParts small _⟩

/-- A handle that has been given out is packed from its own parts. -/
theorem WellFormed.ofParts_of_given (wf : table.WellFormed) (given : table.Given h) :
    h.index + 1 < 2 ^ 32 ∧ Handle.ofParts h.index.toUInt32 h.generation = h := by
  obtain ⟨slot, found, _⟩ := given
  have small := wf.index_lt found
  have index := Handle.index_ofParts small h.generation
  have generation := Handle.generation_ofParts small h.generation
  exact ⟨small, Handle.eq_of_parts (by rw [index]; exact small) index generation⟩

/-- One more handle is live, and before it the number of live handles was below the limit. -/
theorem WellFormed.issue_within_limit (wf : table.WellFormed) {limit : Nat}
    (ok : table.issue limit ref = .ok (h, table')) :
    table'.live = table.live + 1 ∧ (0 < limit → table.live < limit) := by
  refine ⟨?_, fun positive => ?_⟩
  · rcases wf.issue_cases ok with ⟨index, rest, g, _, _, _, _, rfl⟩ | ⟨_, _, _, rfl⟩ <;> rfl
  · unfold HandleTable.issue at ok
    split at ok
    · cases ok
    next free => exact Nat.lt_of_not_ge fun full => free ⟨positive, full⟩

end HandleTable

/-! ### What a use can do -/

section Steps

variable {table table' : HandleTable} {i : Nat} {slot : Slot}
  {event : TableUse × Except Failure TableAnswer}

theorem TableStep.kept_of_refused (step : TableStep table event table') {e : Failure}
    (refused : event.2 = .error e) : table' = table := by
  obtain ⟨use, answer⟩ := event
  cases refused
  cases step with
  | keeps same given ended => exact same
  | gives ref h gives given ended how => cases given
  | takes ref h takes given ended => cases use <;> cases ended

/-- A slot whose generations are used up is neither given out nor ended: it stays as it is. -/
theorem TableStep.retired (step : TableStep table event table') (wf' : table'.WellFormed)
    (found : table.slots[i]? = some slot) (last : slot.generation = HandleTable.lastGeneration) :
    table'.slots[i]? = some slot ∧ ∀ h, given? event = some h → h.index ≠ i := by
  cases step with
  | keeps same given ended =>
    rw [same, given]
    exact ⟨found, nofun⟩
  | gives ref h gives given ended how =>
    have lt := wf'.occupied_lt _ _ _ gives.after
    have apart : h.index ≠ i := by
      rintro rfl
      rcases gives.before with empty | ⟨outside, _⟩
      · cases empty.symm.trans found
        exact UInt32.lt_irrefl _ (last ▸ lt)
      · have inside := (List.getElem?_eq_some_iff.mp found).1
        omega
    refine ⟨(gives.other i (Ne.symm apart)).trans found, fun k same => ?_⟩
    cases given.symm.trans same
    exact apart
  | takes ref h takes given ended =>
    have apart : h.index ≠ i := by
      rintro rfl
      cases takes.before.symm.trans found
      exact UInt32.lt_irrefl _ (last ▸ takes.generation_lt)
    rw [given]
    exact ⟨(takes.other i (Ne.symm apart)).trans found, nofun⟩

end Steps

namespace State

variable {s : State} {h : Handle}

/-- A handle is given out only below the limit, and then one more is live. -/
def GrantsWithin (s : State) (use : TableUse) : Prop :=
  ∀ h, given? (use, (s.run use.op).1) = some h →
    (s.run use.op).2.handles.live = s.handles.live + 1 ∧
      (0 < s.options.maxLiveHandles → (s.run use.op).2.handles.live ≤ s.options.maxLiveHandles)

theorem grantsWithin_of_issue (wf : s.handles.WellFormed) {use : TableUse} (ref : Ref)
    (run : s.run use.op = s.run (do return .handle (← Op.issue ref))) : s.GrantsWithin use := by
  unfold GrantsWithin
  rw [run, run_bind, run_issue]
  intro h given
  cases issued : s.handles.issue s.options.maxLiveHandles ref with
  | error cause =>
    rw [issued] at given
    cases given
  | ok found =>
    obtain ⟨k, handles⟩ := found
    obtain ⟨live_eq, below⟩ := wf.issue_within_limit issued
    exact ⟨live_eq, fun positive => live_eq ▸ below positive⟩

theorem grantsWithin (wf : s.handles.WellFormed) (use : TableUse) : s.GrantsWithin use := by
  cases use with
  | issue ref => exact grantsWithin_of_issue wf ref rfl
  | duplicate source expected =>
    cases resolved : s.handles.resolve source expected with
    | ok ref =>
      refine grantsWithin_of_issue wf ref ?_
      simp only [TableUse.op, run_bind, run_duplicate, resolved]
    | error cause =>
      intro h given
      simp only [TableUse.op, run_bind, run_duplicate, resolved] at given
      cases given
  | resolve k expected =>
    intro h given
    simp only [TableUse.op, run_bind, run_resolve] at given
    cases resolved : s.handles.resolve k expected <;> rw [resolved] at given <;> cases given
  | refcount k expected =>
    intro h given
    simp only [TableUse.op, run_bind, run_refcount] at given
    cases resolved : s.handles.resolve k expected <;> rw [resolved] at given <;> cases given
  | release k expected =>
    intro h given
    simp only [TableUse.op, run_bind, run_release] at given
    cases released : s.handles.release k expected <;> rw [released] at given <;> cases given
  | limit most =>
    intro h given
    cases given

/-! ### What all uses keep -/

theorem wellFormed_afterUses (wf : s.handles.WellFormed) (uses : List TableUse) :
    (s.afterUses uses).2.handles.WellFormed := by
  induction uses with
  | nil => exact wf
  | cons use earlier ih => exact (TableUse.step_of_use ih use).1

/-- A slot whose generations are used up stays as it is, whatever comes later. -/
theorem retired_afterUses (wf : s.handles.WellFormed) {i : Nat} {slot : Slot}
    (found : s.handles.slots[i]? = some slot)
    (last : slot.generation = HandleTable.lastGeneration) (later : List TableUse) :
    (s.afterUses later).2.handles.slots[i]? = some slot ∧
      ∀ h ∈ (s.afterUses later).1.handedOut, h.index ≠ i := by
  induction later with
  | nil => exact ⟨found, nofun⟩
  | cons use earlier ih =>
    obtain ⟨found, apart⟩ := ih
    obtain ⟨wf', step⟩ := TableUse.step_of_use (wellFormed_afterUses wf earlier) use
    obtain ⟨found', apart'⟩ := step.retired wf' found last
    refine ⟨found', fun h member => ?_⟩
    obtain ⟨event, inside, given⟩ := List.mem_filterMap.mp member
    rcases List.mem_cons.mp inside with rfl | inside
    · exact apart' h given
    · exact apart h (List.mem_filterMap.mpr ⟨event, inside, given⟩)

end State

/-! ### A slot that is used up -/

/-- A handle is given out and ended, a number of times, the newest first. -/
def TableUse.reuses (ref : Ref) : Nat → List TableUse
  | 0 => []
  | n + 1 => .release (.ofParts 0 (n + 1).toUInt32) none :: .issue ref :: reuses ref n

namespace HandleTable

/-- A table with one slot, which has been emptied at a generation. -/
def reused (generation : UInt32) : HandleTable where
  slots := [⟨generation, none⟩]
  free := if generation < lastGeneration then [0] else []

/-- A table with one slot, which is occupied at a generation. -/
def engaged (generation : UInt32) (ref : Ref) : HandleTable where
  slots := [⟨generation, some ref⟩]
  live := 1

theorem issue_new (limit : Nat) (ref : Ref) :
    ({} : HandleTable).issue limit ref = .ok (.ofParts 0 1, engaged 1 ref) := by
  have room : ¬ (limit > 0 ∧ 0 ≥ limit) := by omega
  simp only [issue, room, if_false]
  rfl

theorem issue_reused {generation : UInt32} (left : generation < lastGeneration) (limit : Nat)
    (ref : Ref) : (reused generation).issue limit ref =
      .ok (.ofParts 0 generation, engaged generation ref) := by
  have room : ¬ (limit > 0 ∧ (reused generation).live ≥ limit) := by
    have empty : (reused generation).live = 0 := rfl
    omega
  rw [issue, if_neg room]
  simp only [reused, if_pos left]
  rfl

theorem release_engaged (generation : UInt32) (ref : Ref) :
    (engaged generation ref).release (.ofParts 0 generation) none =
      .ok (ref, reused (generation + 1)) := by
  have index : (Handle.ofParts 0 generation).index = 0 :=
    Handle.index_ofParts (i := 0) (by decide) generation
  have same : (Handle.ofParts 0 generation).generation = generation :=
    Handle.generation_ofParts (i := 0) (by decide) generation
  refine release_eq_ok_iff.mpr ⟨⟨⟨generation, some ref⟩, find_eq_ok_iff.mpr ⟨?_, ?_, rfl, ?_⟩, ?_⟩,
    nofun⟩
  · exact Handle.not_isNull_of_index (by rw [index]; decide)
  · rw [index]
    rfl
  · exact same.symm
  · rw [index]
    rfl

end HandleTable

theorem State.handles_reuse {s : State} {ref : Ref} {generation : UInt32}
    (issued : s.handles.issue s.options.maxLiveHandles ref =
      .ok (.ofParts 0 generation, .engaged generation ref)) :
    ((s.run (TableUse.issue ref).op).2.run
      (TableUse.release (.ofParts 0 generation) none).op).2.handles = .reused (generation + 1) := by
  have opened : (s.run (TableUse.issue ref).op).2 = s.granted ref (.engaged generation ref) := by
    simp only [TableUse.op, run_bind, run_issue, issued, run_pure]
  have ended : (s.granted ref (.engaged generation ref)).handles.release
      (.ofParts 0 generation) none = .ok (ref, .reused (generation + 1)) :=
    HandleTable.release_engaged generation ref
  rw [opened]
  simp only [TableUse.op, run_bind, run_release, ended, run_pure]
  rfl

/-- Every reuse raises the generation of the only slot, up to the last one. -/
theorem State.handles_reuses (s : State) (ref : Ref) {n : Nat} (small : n + 1 < 2 ^ 32 - 1) :
    (({ s with handles := {} } : State).afterUses (TableUse.reuses ref (n + 1))).2.handles =
      .reused (n + 2).toUInt32 := by
  induction n with
  | zero => exact handles_reuse (HandleTable.issue_new _ ref)
  | succ n ih =>
    have before := ih (by omega)
    have left : (n + 2).toUInt32 < HandleTable.lastGeneration := by
      rw [HandleTable.lt_lastGeneration_iff, UInt32.toNat_ofNat_of_lt' (by
        simp only [UInt32.size]
        omega)]
      omega
    have next : (n + 2).toUInt32 + 1 = (n + 1 + 2).toUInt32 := (UInt32.ofNat_add (n + 2) 1).symm
    have issued (limit : Nat) :
        (({ s with handles := {} } : State).afterUses
          (TableUse.reuses ref (n + 1))).2.handles.issue limit ref =
            .ok (.ofParts 0 (n + 2).toUInt32, .engaged (n + 2).toUInt32 ref) := by
      rw [before]
      exact HandleTable.issue_reused left limit ref
    rw [← next]
    exact handles_reuse (issued _)

/-- After any uses of a new table everything in it is within its bounds, and every handle that it
gave out is packed from its own parts. Then a use that is refused changes nothing in the table, one
that gives out a handle keeps to the limit of live handles, and a slot whose generations are used up
is never given out again. -/
theorem table_within_bounds (s : State) (uses : List TableUse) :
    let past := (({ s with handles := {} } : State).afterUses uses).1
    let now := (({ s with handles := {} } : State).afterUses uses).2
    now.handles.InBounds ∧
    (∀ h ∈ past.handedOut,
      h.index + 1 < 2 ^ 32 ∧ Handle.ofParts h.index.toUInt32 h.generation = h) ∧
    (∀ (use : TableUse) e, (now.run use.op).1 = .error e →
      (now.run use.op).2.handles = now.handles) ∧
    (∀ use, now.GrantsWithin use) ∧
    ∀ (i : Nat) (slot : Slot), now.handles.slots[i]? = some slot →
      slot.generation = HandleTable.lastGeneration → ∀ later,
        (now.afterUses later).2.handles.slots[i]? = some slot ∧
          ∀ h ∈ (now.afterUses later).1.handedOut, h.index ≠ i := by
  intro past now
  have remembered : now.handles.WellFormed ∧ Remembers past now.handles :=
    remembers_afterUses s uses
  obtain ⟨wf, mem⟩ := remembered
  refine ⟨wf.inBounds, fun h given => ?_, fun use e refused => ?_, State.grantsWithin wf,
    fun i slot found last later => State.retired_afterUses wf found last later⟩
  · exact wf.ofParts_of_given ((mem.mem_handedOut h).mp given)
  · exact (TableUse.step_of_use wf use).2.kept_of_refused refused

/-- A slot can be used until its generations are used up, and is then never given out again. -/
theorem spent_slot_retired :
    ∃ uses : List TableUse,
      let now := (({} : State).afterUses uses).2
      now.handles.InBounds ∧ now.handles.slots = [⟨HandleTable.lastGeneration, none⟩] ∧
        now.handles.free = [] ∧ ∀ later, ∀ h ∈ (now.afterUses later).1.handedOut, h.index ≠ 0 := by
  -- The number of uses stays a variable: it is far too great to be unfolded.
  obtain ⟨n, small, last⟩ :
      ∃ n : Nat, n + 1 < 2 ^ 32 - 1 ∧ (n + 2).toUInt32 = HandleTable.lastGeneration :=
    ⟨2 ^ 32 - 3, by decide, by decide⟩
  have spent := State.handles_reuses {} ⟨0, .string⟩ small
  obtain ⟨bounds, _, _, _, retired⟩ :=
    table_within_bounds {} (TableUse.reuses ⟨0, .string⟩ (n + 1))
  rw [last] at spent
  refine ⟨_, bounds, by rw [spent]; rfl, by rw [spent]; rfl, fun later => ?_⟩
  exact (retired 0 ⟨HandleTable.lastGeneration, none⟩ (by rw [spent]; rfl) rfl later).2

end ObjectBoundary
