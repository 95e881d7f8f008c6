import Mathlib.Algebra.Order.BigOperators.Group.Finset
import ObjectBoundary.Proofs.Accounting
import ObjectBoundary.Proofs.Tasks.Restored

/-!
# Lists of projects and managers

A heap is a forest when nothing stands twice in the lists of projects and managers together, and
each list is in the order in which its items were made. It stays one when objects are dropped, when
an object is made that lists only what is on no list, and when a list loses items or takes in what
is on no list, the newest last.
-/

namespace ObjectBoundary

namespace Payload

/-- What a project or a manager lists. -/
def children : Payload → List Ref
  | .project p => p.tasks
  | .manager m => m.projects
  | _ => []

end Payload

/-- References in the order in which their objects were made. -/
def Chronological (refs : List Ref) : Prop := refs.Pairwise fun a b => a.number < b.number

namespace Heap

def childrenAt (heap : Heap) (i : Nat) : List Ref := (heap.payloadAt i).elim [] Payload.children

/-- Nothing is listed twice, only what is there, and in the order in which it was made. -/
structure Forest (heap : Heap) : Prop where
  once : ∀ n, heap.listed n ≤ 1
  there : ∀ n, heap.objects.length ≤ n → heap.listed n = 0
  ordered : ∀ i, Chronological (heap.childrenAt i)

/-- Different objects that are there and on no list, in the order in which they were made. -/
structure Unlisted (heap : Heap) (refs : List Ref) : Prop where
  once : ∀ n, occurrences n refs ≤ 1
  there : ∀ ref ∈ refs, ref.number < heap.objects.length
  unlisted : ∀ ref ∈ refs, heap.listed ref.number = 0
  ordered : Chronological refs

/-- A list loses items or takes in what is on no list, and stays in order. -/
structure Relists (heap : Heap) (old new : List Ref) : Prop where
  counts : ∀ n, occurrences n new ≤ occurrences n old ∨
    occurrences n new ≤ 1 ∧ heap.listed n = 0 ∧ n < heap.objects.length
  ordered : Chronological old → Chronological new

variable {heap after : Heap} {n : Nat} {p p' : Payload} {refs : List Ref} {ref : Ref}

/-! ### Counting by number -/

theorem sum_map_eq_sum_range (f : Object → Nat) (objects : List Object) :
    (objects.map f).sum = ∑ i ∈ Finset.range objects.length, objects[i]?.elim 0 f := by
  induction objects with
  | nil => rfl
  | cons o objects ih =>
    rw [List.map_cons, List.sum_cons, ih, List.length_cons, Finset.sum_range_succ']
    simp only [List.getElem?_cons_succ, List.getElem?_cons_zero, Option.elim_some]
    omega

theorem listed_eq_sum (heap : Heap) (n : Nat) :
    heap.listed n = ∑ i ∈ Finset.range heap.objects.length, occurrences n (heap.childrenAt i) := by
  rw [listed, sum_map_eq_sum_range]
  refine Finset.sum_congr rfl fun i _ => ?_
  unfold childrenAt payloadAt
  cases heap.objects[i]? with
  | none => rfl
  | some o =>
    cases hp : o.payload with
    | none => simp [hp]
    | some p => cases p <;> simp [hp, Payload.children]

theorem childrenAt_of_payloadAt (hp : heap.payloadAt n = some p) :
    heap.childrenAt n = p.children := by
  simp [childrenAt, hp]

theorem occurrences_le_listed {i : Nat} (hp : heap.payloadAt i = some p) :
    occurrences n p.children ≤ heap.listed n := by
  have small := Finset.mem_range.mpr (lt_length_of_payloadAt hp)
  rw [listed_eq_sum, ← childrenAt_of_payloadAt hp]
  exact Finset.single_le_sum (f := fun i => occurrences n (heap.childrenAt i))
    (fun _ _ => Nat.zero_le _) small

theorem childrenAt_kept (kept : Kept heap after) {i : Nat} (small : i < heap.objects.length) :
    after.childrenAt i = heap.childrenAt i ∨ after.childrenAt i = [] := by
  unfold childrenAt
  rcases kept.payload i small with same | gone
  · exact .inl (by rw [same])
  · exact .inr (by rw [gone]; rfl)

/-- What is dropped is on the list of no one any more. -/
theorem listed_le_of_kept (kept : Kept heap after)
    (length_eq : after.objects.length = heap.objects.length) (n : Nat) :
    after.listed n ≤ heap.listed n := by
  rw [listed_eq_sum, listed_eq_sum, length_eq]
  refine Finset.sum_le_sum fun i hi => ?_
  rcases childrenAt_kept kept (Finset.mem_range.mp hi) with same | gone
  · rw [same]
  · rw [gone]
    exact Nat.zero_le _

theorem listed_create (heap : Heap) (tag : Tag) (p : Payload) (n : Nat) :
    (heap.create tag p).2.listed n = heap.listed n + occurrences n p.children := by
  rw [listed_eq_sum, listed_eq_sum, length_create, Finset.sum_range_succ]
  congr 1
  · refine Finset.sum_congr rfl fun i hi => ?_
    rw [childrenAt, payloadAt_create, if_neg (Nat.ne_of_lt (Finset.mem_range.mp hi))]
    rfl
  · rw [childrenAt, payloadAt_create, if_pos rfl]
    rfl

/-- A replaced payload brings its own list, and what the old one held may go with its lists. -/
theorem childrenAt_replace (hp : heap.payloadAt ref.number = some p) (p' : Payload) (i : Nat) :
    (heap.replace ref p').childrenAt i = [] ∨
      (heap.replace ref p').childrenAt i =
        if ref.number = i then p'.children else heap.childrenAt i := by
  unfold childrenAt
  cases alive : (heap.replace ref p').payloadAt i with
  | none => exact .inl rfl
  | some q =>
    have placed := payloadAt_replace_of_alive (lt_length_of_payloadAt hp) (by rw [alive]; rfl)
    rw [alive] at placed
    rw [placed]
    split <;> exact .inr rfl

/-- Replacing a payload exchanges one list. -/
theorem listed_replace_le (hp : heap.payloadAt ref.number = some p) (p' : Payload) (n : Nat) :
    (heap.replace ref p').listed n + occurrences n p.children ≤
      heap.listed n + occurrences n p'.children := by
  have small := lt_length_of_payloadAt hp
  have member := Finset.mem_range.mpr small
  rw [listed_eq_sum, listed_eq_sum, length_replace, ← Finset.add_sum_erase _ _ member,
    ← Finset.add_sum_erase _ (fun i => occurrences n (heap.childrenAt i)) member,
    childrenAt_of_payloadAt hp]
  -- Not an equality, since lists may go.
  have self : occurrences n ((heap.replace ref p').childrenAt ref.number) ≤
      occurrences n p'.children := by
    rcases childrenAt_replace hp p' ref.number with gone | same
    · rw [gone]
      exact Nat.zero_le _
    · rw [same, if_pos rfl]
  have others : ∑ i ∈ (Finset.range heap.objects.length).erase ref.number,
        occurrences n ((heap.replace ref p').childrenAt i) ≤
      ∑ i ∈ (Finset.range heap.objects.length).erase ref.number,
        occurrences n (heap.childrenAt i) := by
    refine Finset.sum_le_sum fun i hi => ?_
    rcases childrenAt_replace hp p' i with gone | same
    · rw [gone]
      exact Nat.zero_le _
    · rw [same, if_neg (Finset.ne_of_mem_erase hi).symm]
  omega

/-! ### What keeps a forest -/

theorem forest_empty : Forest {} :=
  ⟨fun _ => Nat.zero_le 1, fun _ _ => rfl, fun _ => List.Pairwise.nil⟩

theorem Forest.chronological (forest : heap.Forest) (hp : heap.payloadAt n = some p) :
    Chronological p.children :=
  childrenAt_of_payloadAt hp ▸ forest.ordered n

/-- What is listed is there. -/
theorem Forest.lt_length (forest : heap.Forest) (hp : heap.payloadAt n = some p)
    (member : ref ∈ p.children) : ref.number < heap.objects.length := by
  by_contra beyond
  have none := forest.there ref.number (Nat.le_of_not_lt beyond)
  have listed := occurrences_le_listed (n := ref.number) hp
  have present := occurrences_pos member
  omega

theorem Forest.kept (forest : heap.Forest) (kept : Kept heap after)
    (length_eq : after.objects.length = heap.objects.length) : after.Forest := by
  refine ⟨fun n => ?_, fun n beyond => ?_, fun i => ?_⟩
  · exact Nat.le_trans (listed_le_of_kept kept length_eq n) (forest.once n)
  · have none := forest.there n (length_eq ▸ beyond)
    have := listed_le_of_kept kept length_eq n
    omega
  · rcases Nat.lt_or_ge i heap.objects.length with small | beyond
    · rcases childrenAt_kept kept small with same | gone
      · exact same ▸ forest.ordered i
      · exact gone ▸ List.Pairwise.nil
    · have gone : after.childrenAt i = [] := by
        simp [childrenAt, payloadAt, List.getElem?_eq_none (length_eq ▸ beyond)]
      exact gone ▸ List.Pairwise.nil

theorem unlisted_nil (heap : Heap) : heap.Unlisted [] :=
  ⟨fun _ => Nat.zero_le 1, by simp, by simp, List.Pairwise.nil⟩

theorem Unlisted.listed_add_le (unlisted : heap.Unlisted refs) (forest : heap.Forest) (n : Nat) :
    heap.listed n + occurrences n refs ≤ 1 := by
  rcases Nat.eq_zero_or_pos (occurrences n refs) with absent | present
  · have := forest.once n
    omega
  · obtain ⟨ref, member, rfl⟩ := mem_of_occurrences_pos present
    have := unlisted.unlisted ref member
    have := unlisted.once ref.number
    omega

theorem Unlisted.occurrences_eq_zero (unlisted : heap.Unlisted refs)
    (beyond : heap.objects.length ≤ n) : occurrences n refs = 0 := by
  rcases Nat.eq_zero_or_pos (occurrences n refs) with absent | present
  · exact absent
  · obtain ⟨ref, member, rfl⟩ := mem_of_occurrences_pos present
    have := unlisted.there ref member
    omega

/-- A new object may list what is on no list. -/
theorem Forest.create (forest : heap.Forest) (tag : Tag) (unlisted : heap.Unlisted p.children) :
    (heap.create tag p).2.Forest := by
  refine ⟨fun n => ?_, fun n beyond => ?_, fun i => ?_⟩
  · rw [listed_create]
    exact unlisted.listed_add_le forest n
  · rw [length_create] at beyond
    rw [listed_create, forest.there n (by omega), unlisted.occurrences_eq_zero (by omega)]
  · rw [childrenAt, payloadAt_create]
    split
    · exact unlisted.ordered
    · exact forest.ordered i

theorem Forest.replace (forest : heap.Forest) (hp : heap.payloadAt ref.number = some p)
    (relists : heap.Relists p.children p'.children) : (heap.replace ref p').Forest := by
  refine ⟨fun n => ?_, fun n beyond => ?_, fun i => ?_⟩
  · have exchanged := listed_replace_le hp p' n
    have once := forest.once n
    rcases relists.counts n with fewer | ⟨single, unlisted, _⟩
    · omega
    · omega
  · rw [length_replace] at beyond
    have exchanged := listed_replace_le hp p' n
    have none := forest.there n beyond
    rcases relists.counts n with fewer | ⟨_, _, there⟩
    · omega
    · omega
  · rcases childrenAt_replace hp p' i with gone | same
    · exact gone ▸ List.Pairwise.nil
    · rw [same]
      split
      · exact relists.ordered (forest.chronological hp)
      · exact forest.ordered i

/-! ### Lists that change -/

theorem relists_of_eq {old new : List Ref} (same : new = old) : heap.Relists old new :=
  ⟨fun n => .inl (by rw [same]), fun ordered => same ▸ ordered⟩

/-- What is newer than all on a list and has a number of its own is put at its end. -/
theorem relists_concat (hp : heap.payloadAt n = some p) (there : ref.number < heap.objects.length)
    (unlisted : heap.listed ref.number = 0)
    (newest : ∀ old ∈ p.children, old.number < ref.number) :
    heap.Relists p.children (p.children ++ [ref]) := by
  refine ⟨fun k => ?_, fun ordered => ?_⟩
  · rw [occurrences_append, occurrences_cons, occurrences_nil]
    by_cases same : ref.number = k
    · subst same
      have := occurrences_le_listed (n := ref.number) hp
      exact .inr ⟨by rw [if_pos rfl]; omega, unlisted, there⟩
    · exact .inl (by rw [if_neg same]; omega)
  · refine List.pairwise_append.mpr ⟨ordered, List.pairwise_singleton _ _, ?_⟩
    intro old member last found
    exact List.mem_singleton.mp found ▸ newest old member

theorem relists_erase (old : List Ref) (ref : Ref) : heap.Relists old (old.erase ref) :=
  ⟨fun _ => .inl (List.erase_sublist.countP_le), fun ordered => ordered.sublist List.erase_sublist⟩

theorem Unlisted.relists (unlisted : heap.Unlisted refs) (old : List Ref) :
    heap.Relists old refs := by
  refine ⟨fun n => ?_, fun _ => unlisted.ordered⟩
  rcases Nat.eq_zero_or_pos (occurrences n refs) with absent | present
  · exact .inl (by omega)
  · obtain ⟨ref, member, rfl⟩ := mem_of_occurrences_pos present
    exact .inr ⟨unlisted.once _, unlisted.unlisted ref member, unlisted.there ref member⟩

end Heap

end ObjectBoundary
