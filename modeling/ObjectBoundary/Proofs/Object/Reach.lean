import ObjectBoundary.Proofs.Object.Sound

/-!
# Reachable objects

What a payload refers to stands lower in the order text, task, project, manager, collection, so
references never form a cycle. Hence the objects of a sound heap that have not been destroyed are
exactly those that can be reached from the references held outside, and a heap is determined by
these references and the payloads that it has kept.
-/

namespace ObjectBoundary

namespace Tag

/-- How high the objects of a tag stand. -/
def rank : Tag → Nat
  | .string => 0
  | .interface id =>
    if id = TaskModel.ids.manager then 3
    else if id = TaskModel.ids.project then 2
    else 1
  | .array | .dict | .set => 4

theorem rank_lt_of_isInterface {tag : Tag} (h : tag.isInterface) : tag.rank < 4 := by
  cases tag with
  | interface id =>
    simp only [rank]
    split
    · omega
    · split <;> omega
  | string | array | dict | set => cases h

theorem rank_le (tag : Tag) : tag.rank ≤ 4 := by
  cases tag with
  | interface id => exact Nat.le_of_lt (rank_lt_of_isInterface rfl)
  | string | array | dict | set => simp [rank]

theorem rank_collection (kind : CollectionKind) : kind.tag.rank = 4 := by
  cases kind <;> rfl

end Tag

/-- A payload refers to objects that stand lower than its own. -/
theorem Payload.Fits.rank_lt {tag : Tag} {p : Payload} (fits : p.Fits tag) {ref : Ref}
    (hr : ref ∈ p.refs) : ref.tag.rank < tag.rank := by
  cases p with
  | text value => cases hr
  | task content => cases hr
  | collection c =>
    rw [fits.1, Tag.rank_collection]
    exact Tag.rank_lt_of_isInterface (fits.2 ref hr)
  | project content =>
    rw [fits.1, fits.2 ref hr]
    decide
  | manager content =>
    rw [fits.1, fits.2 ref hr]
    decide
  | scripted content => cases fits

namespace Heap

/-- The objects that references lead to, one after another, from given ones. -/
inductive Reached (heap : Heap) (root : Nat → Prop) : Nat → Prop where
  | root {n : Nat} : root n → Reached heap root n
  | owned {m : Nat} {p : Payload} {ref : Ref} : Reached heap root m →
      heap.payloadAt m = some p → ref ∈ p.refs → Reached heap root ref.number

section Reaching

variable {held held' : Nat → Nat} {heap after : Heap}

theorem Sound.alive_of_reached (sound : Sound held [] heap) {n : Nat}
    (reached : heap.Reached (0 < held ·) n) : (heap.payloadAt n).isSome := by
  cases reached with
  | root hn => exact sound.alive_of_held hn
  | owned _ hp hr => exact sound.alive_of_owned hp hr

/-- An object that nothing outside holds is owned by one that stands higher. -/
theorem Sound.held_or_owner (sound : Sound held [] heap) {n : Nat} {tag : Tag}
    (alive : (heap.payloadAt n).isSome) (htag : heap.tagAt n = some tag) :
    0 < held n ∨ ∃ m p ref owner, heap.payloadAt m = some p ∧ ref ∈ p.refs ∧ ref.number = n ∧
      heap.tagAt m = some owner ∧ tag.rank < owner.rank := by
  have hcount : 0 < heap.countAt n := by
    rcases sound.alive_counted n alive with hpos | hmade
    · exact hpos
    · cases hmade
  rw [sound.counts] at hcount
  by_cases hheld : 0 < held n
  · exact .inl hheld
  · obtain ⟨m, p, ref, hp, hr, rfl⟩ := owner_of_owns_pos (show 0 < heap.owns n by omega)
    have hm := lt_length_of_payloadAt hp
    have howner : heap.tagAt m = some heap.objects[m].tag := by simp [tagAt, hm]
    have hrank := (sound.fits hp howner).rank_lt hr
    have hhas := sound.has hp hr
    rw [Has, htag] at hhas
    cases hhas
    exact .inr ⟨m, p, ref, _, hp, hr, rfl, howner, hrank⟩

theorem Sound.reached_of_alive (sound : Sound held [] heap) {n : Nat} {tag : Tag}
    (alive : (heap.payloadAt n).isSome) (htag : heap.tagAt n = some tag) :
    heap.Reached (0 < held ·) n := by
  -- The way up from an object to its owners ends, because they stand higher and higher.
  rcases sound.held_or_owner alive htag with hheld | ⟨m, p, ref, owner, hp, hr, rfl, howner, hrank⟩
  · exact .root hheld
  · exact .owned (sound.reached_of_alive (by simp [hp]) howner) hp hr
termination_by 4 - tag.rank
decreasing_by
  have := owner.rank_le
  omega

/-- Exactly the objects that can be reached have not been destroyed. -/
theorem Sound.alive_iff_reached (sound : Sound held [] heap) (n : Nat) :
    (heap.payloadAt n).isSome ↔ heap.Reached (0 < held ·) n := by
  constructor
  · intro alive
    obtain ⟨p, hp⟩ := Option.isSome_iff_exists.mp alive
    have hn := lt_length_of_payloadAt hp
    exact sound.reached_of_alive alive (show heap.tagAt n = some heap.objects[n].tag by
      simp [tagAt, hn])
  · exact sound.alive_of_reached

/-- What is owned depends on the payloads only. -/
theorem owns_congr (same : ∀ n, after.payloadAt n = heap.payloadAt n) (n : Nat) :
    after.owns n = heap.owns n := by
  have hsum : ∀ objects others : List Object,
      (∀ i : Nat, others[i]?.bind (·.payload) = objects[i]?.bind (·.payload)) →
      (others.map fun o => occurrences n o.refs).sum =
        (objects.map fun o => occurrences n o.refs).sum := by
    intro objects
    induction objects with
    | nil =>
      intro others hsame
      induction others with
      | nil => rfl
      | cons other others ih =>
        have hnone : other.payload = none := by simpa using hsame 0
        have hrest := ih fun i => by simpa using hsame (i + 1)
        simp only [List.map_cons, List.sum_cons, hrest]
        simp [Object.refs, hnone]
    | cons object objects ih =>
      intro others hsame
      cases others with
      | nil =>
        have hnone : object.payload = none := by simpa using (hsame 0).symm
        have hrest := ih [] fun i => by simpa using hsame (i + 1)
        simp only [List.map_cons, List.sum_cons, ← hrest]
        simp [Object.refs, hnone]
      | cons other others =>
        have hhead : other.payload = object.payload := by simpa using hsame 0
        have hrest := ih others fun i => by simpa using hsame (i + 1)
        simp only [List.map_cons, List.sum_cons, hrest]
        simp [Object.refs, hhead]
  exact hsum heap.objects after.objects same

/-- When the same references are held outside and no payload was changed, then every object is as it
was, and what was made in between has been destroyed. -/
theorem Sound.payload_eq (sound : Sound held [] heap) (sound' : Sound held' [] after)
    (kept : Kept heap after) (same : ∀ n, held' n = held n) (n : Nat) :
    after.payloadAt n = heap.payloadAt n := by
  have forward : ∀ {n}, heap.Reached (0 < held ·) n → after.Reached (0 < held' ·) n := by
    intro n reached
    induction reached with
    | root hn => exact .root (by rw [same]; exact hn)
    | @owned m p ref _ hp hr ih =>
      have alive := sound'.alive_of_reached ih
      rcases kept.payload m (lt_length_of_payloadAt hp) with heq | hnone
      · exact .owned ih (heq.trans hp) hr
      · simp [hnone] at alive
  have backward : ∀ {n}, after.Reached (0 < held' ·) n → n < heap.objects.length := by
    intro n reached
    induction reached with
    | @root n hn =>
      rw [same] at hn
      apply lt_length_of_countAt
      rw [sound.counts]
      omega
    | @owned m p ref _ hp hr ih =>
      rcases kept.payload m ih with heq | hnone
      · exact (sound.has (heq.symm.trans hp) hr).lt_length
      · rw [hnone] at hp
        cases hp
  by_cases hlt : n < heap.objects.length
  · rcases kept.payload n hlt with heq | hnone
    · exact heq
    · cases hp : heap.payloadAt n with
      | none => exact hnone
      | some p =>
        have alive := sound'.alive_of_reached
          (forward ((sound.alive_iff_reached n).mp (by simp [hp])))
        simp [hnone] at alive
  · have hbefore : heap.payloadAt n = none := by
      simp [payloadAt, List.getElem?_eq_none (Nat.le_of_not_lt hlt)]
    rw [hbefore]
    cases hp : after.payloadAt n with
    | none => rfl
    | some p => exact absurd (backward ((sound'.alive_iff_reached n).mp (by simp [hp]))) hlt

theorem Sound.count_eq (sound : Sound held [] heap) (sound' : Sound held' [] after)
    (kept : Kept heap after) (same : ∀ n, held' n = held n) (n : Nat) :
    after.countAt n = heap.countAt n := by
  rw [sound.counts, sound'.counts, same, owns_congr (sound.payload_eq sound' kept same)]

end Reaching

/-- An object is its tag, its count and its payload. -/
theorem getElem?_of_views {heap after : Heap} {n : Nat} (hlt : n < heap.objects.length)
    (tag : after.tagAt n = heap.tagAt n) (payload : after.payloadAt n = heap.payloadAt n)
    (count : after.countAt n = heap.countAt n) : after.objects[n]? = heap.objects[n]? := by
  have hbefore : heap.objects[n]? = some heap.objects[n] := List.getElem?_eq_getElem hlt
  cases hafter : after.objects[n]? with
  | none => simp [tagAt, hafter, hbefore] at tag
  | some o =>
    simp only [tagAt, payloadAt, countAt, hafter, hbefore, Option.map_some, Option.some.injEq,
      Option.bind_some, Option.getD_some] at tag payload count
    rw [hbefore]
    cases o
    simp_all

end Heap

end ObjectBoundary
