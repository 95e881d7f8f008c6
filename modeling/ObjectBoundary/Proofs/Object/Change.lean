import ObjectBoundary.Proofs.Object.Count

/-!
# How a heap changes

Objects keep their numbers and their tags. What may become of a payload depends on the operation:
counting leaves it alone, destruction drops it, and replacement changes it, but a payload that has
been dropped never comes back.
-/

namespace ObjectBoundary.Heap

/-- All objects are still there, and their payloads changed as a relation allows. -/
structure Evolves (allowed : Option Payload → Option Payload → Prop) (before after : Heap) :
    Prop where
  length_le : before.objects.length ≤ after.objects.length
  tag_eq : ∀ n, n < before.objects.length → after.tagAt n = before.tagAt n
  payload : ∀ n, n < before.objects.length → allowed (before.payloadAt n) (after.payloadAt n)

/-- No payload changed. -/
abbrev Grown : Heap → Heap → Prop := Evolves fun old new => new = old

/-- No payload changed, but some may have been dropped. -/
abbrev Kept : Heap → Heap → Prop := Evolves fun old new => new = old ∨ new = none

/-- No payload came back. -/
abbrev Later : Heap → Heap → Prop := Evolves fun old new => old = none → new = none

section Relations

variable {allowed other : Option Payload → Option Payload → Prop} {heap before middle after : Heap}

theorem Evolves.refl (hself : ∀ p, allowed p p) (heap : Heap) : Evolves allowed heap heap :=
  ⟨Nat.le_refl _, fun _ _ => rfl, fun _ _ => hself _⟩

theorem Evolves.trans (htrans : ∀ p q r, allowed p q → allowed q r → allowed p r)
    (first : Evolves allowed before middle) (second : Evolves allowed middle after) :
    Evolves allowed before after := by
  refine ⟨Nat.le_trans first.length_le second.length_le, ?_, ?_⟩
  · intro n hn
    rw [second.tag_eq n (Nat.lt_of_lt_of_le hn first.length_le), first.tag_eq n hn]
  · intro n hn
    exact htrans _ _ _ (first.payload n hn)
      (second.payload n (Nat.lt_of_lt_of_le hn first.length_le))

theorem Evolves.mono (himp : ∀ p q, allowed p q → other p q)
    (evolves : Evolves allowed before after) : Evolves other before after :=
  ⟨evolves.length_le, evolves.tag_eq, fun n hn => himp _ _ (evolves.payload n hn)⟩

theorem Grown.refl (heap : Heap) : Grown heap heap := ⟨Nat.le_refl _, by simp, by simp⟩

theorem Grown.trans (first : Grown before middle) (second : Grown middle after) :
    Grown before after :=
  Evolves.trans (fun _ _ _ hpq hqr => hqr.trans hpq) first second

theorem Grown.kept (grown : Grown before after) : Kept before after :=
  grown.mono fun _ _ hp => .inl hp

theorem Kept.refl (heap : Heap) : Kept heap heap := Evolves.refl (fun _ => .inl rfl) heap

theorem Kept.trans (first : Kept before middle) (second : Kept middle after) :
    Kept before after := by
  refine Evolves.trans ?_ first second
  intro p q r hpq hqr
  rcases hqr with rfl | rfl
  · exact hpq
  · exact .inr rfl

theorem Kept.later (kept : Kept before after) : Later before after := by
  refine kept.mono ?_
  intro p q hq hp
  rcases hq with rfl | rfl
  · exact hp
  · rfl

theorem Later.refl (heap : Heap) : Later heap heap := Evolves.refl (fun _ hp => hp) heap

theorem Later.trans (first : Later before middle) (second : Later middle after) :
    Later before after :=
  Evolves.trans (fun _ _ _ hpq hqr hp => hqr (hpq hp)) first second

/-- One object changes and keeps its tag. -/
theorem Evolves.setObject (hself : ∀ p, allowed p p) {ref : Ref} {old : Object}
    (found : heap.object? ref = some old) (new : Object) (tag : new.tag = old.tag)
    (payload : allowed old.payload new.payload) :
    Evolves allowed heap (heap.setObject ref new) := by
  obtain ⟨htag, hpayload, _⟩ := views_of_object? found
  refine ⟨by simp, ?_, ?_⟩
  · intro n _
    rw [tagAt_setObject found]
    by_cases hne : ref.number = n
    · rw [if_pos hne, ← hne, htag, tag]
    · rw [if_neg hne]
  · intro n _
    rw [payloadAt_setObject found]
    by_cases hne : ref.number = n
    · rw [if_pos hne, ← hne, hpayload]
      exact payload
    · rw [if_neg hne]
      exact hself _

end Relations

/-! ### Counting and destruction -/

variable {heap : Heap}

theorem Grown.retainAll (heap : Heap) (refs : List Ref) : Grown heap (heap.retainAll refs) :=
  ⟨by simp, by simp, by simp⟩

theorem Grown.retain (heap : Heap) (ref : Ref) : Grown heap (heap.retain ref) :=
  Grown.retainAll heap [ref]

theorem Kept.destroy {ref : Ref} {object : Object} (found : heap.object? ref = some object) :
    Kept heap (heap.destroy ref object) := by
  have kept : Kept heap (heap.setObject ref { object with count := 0, payload := none }) :=
    Evolves.setObject (fun _ => .inl rfl) found _ rfl (.inr rfl)
  exact ⟨kept.length_le, kept.tag_eq, kept.payload⟩

theorem Kept.releaseAll (heap : Heap) (refs : List Ref) : Kept heap (heap.releaseAll refs) := by
  fun_induction Heap.releaseAll heap refs with
  | case1 heap => exact Kept.refl heap
  | case2 heap ref rest found ih => exact ih
  | case3 heap ref rest object found hone ih => exact (Kept.destroy found).trans ih
  | case4 heap ref rest object found hone ih =>
    have kept : Kept heap (heap.setObject ref { object with count := object.count - 1 }) :=
      Evolves.setObject (fun _ => .inl rfl) found _ rfl (.inl rfl)
    exact kept.trans ih

theorem length_releaseAll (heap : Heap) (refs : List Ref) :
    (heap.releaseAll refs).objects.length = heap.objects.length := by
  fun_induction Heap.releaseAll heap refs with
  | case1 heap => rfl
  | case2 heap ref rest found ih => exact ih
  | case3 heap ref rest object found hone ih => simpa [Heap.destroy] using ih
  | case4 heap ref rest object found hone ih => simpa using ih

theorem Kept.collect (heap : Heap) (ref : Ref) : Kept heap (heap.collect ref) := by
  unfold Heap.collect
  cases found : heap.object? ref with
  | none => exact Kept.refl heap
  | some object =>
    simp only
    split
    · exact (Kept.destroy found).trans (Kept.releaseAll _ _)
    · exact Kept.refl heap

theorem length_collect (heap : Heap) (ref : Ref) :
    (heap.collect ref).objects.length = heap.objects.length := by
  unfold Heap.collect
  cases heap.object? ref with
  | none => rfl
  | some object =>
    simp only
    split
    · simp [length_releaseAll, Heap.destroy]
    · rfl

/-! ### Creation and replacement -/

@[simp] theorem length_create (heap : Heap) (tag : Tag) (p : Payload) :
    (heap.create tag p).2.objects.length = heap.objects.length + 1 := by
  simp [Heap.create]

theorem getElem?_concat (objects : List Object) (fresh : Object) (n : Nat) :
    (objects ++ [fresh])[n]? = if n = objects.length then some fresh else objects[n]? := by
  by_cases hn : n = objects.length
  · simp [hn]
  · rw [if_neg hn]
    by_cases hlt : n < objects.length
    · exact List.getElem?_append_left hlt
    · rw [List.getElem?_eq_none (by simp only [List.length_append, List.length_singleton]; omega),
        List.getElem?_eq_none (by omega)]

theorem tagAt_create (heap : Heap) (tag : Tag) (p : Payload) (n : Nat) :
    (heap.create tag p).2.tagAt n =
      if n = heap.objects.length then some tag else heap.tagAt n := by
  simp only [Heap.create, tagAt_retainAll]
  simp only [tagAt, getElem?_concat]
  split <;> rfl

theorem payloadAt_create (heap : Heap) (tag : Tag) (p : Payload) (n : Nat) :
    (heap.create tag p).2.payloadAt n =
      if n = heap.objects.length then some p else heap.payloadAt n := by
  simp only [Heap.create, payloadAt_retainAll]
  simp only [payloadAt, getElem?_concat]
  split <;> rfl

theorem Grown.create (heap : Heap) (tag : Tag) (p : Payload) :
    Grown heap (heap.create tag p).2 := by
  refine ⟨by simp, ?_, ?_⟩
  · intro n hn
    rw [tagAt_create, if_neg (Nat.ne_of_lt hn)]
  · intro n hn
    rw [payloadAt_create, if_neg (Nat.ne_of_lt hn)]

theorem payloadAt_setPayload {ref : Ref} (there : ref.number < heap.objects.length) (p : Payload)
    (n : Nat) : (heap.setPayload ref p).payloadAt n =
      if ref.number = n then some p else heap.payloadAt n := by
  have found : heap.object? ref = some heap.objects[ref.number] := List.getElem?_eq_getElem there
  simp only [Heap.setPayload, found, payloadAt_setObject found]

theorem Later.setPayload {ref : Ref} (alive : (heap.payloadAt ref.number).isSome) (p : Payload) :
    Later heap (heap.setPayload ref p) := by
  unfold Heap.setPayload
  cases found : heap.object? ref with
  | none => exact Later.refl heap
  | some object =>
    obtain ⟨_, hpayload, _⟩ := views_of_object? found
    refine Evolves.setObject (fun _ hp => hp) found _ rfl ?_
    intro hnone
    simp [hpayload, hnone] at alive

theorem length_replace (heap : Heap) (ref : Ref) (p : Payload) :
    (heap.replace ref p).objects.length = heap.objects.length := by
  unfold Heap.replace
  cases found : heap.object? ref with
  | none => rfl
  | some object =>
    simp only [length_releaseAll, Heap.setPayload]
    cases (heap.retainAll p.refs).object? ref <;> simp

theorem Later.replace {ref : Ref} (alive : (heap.payloadAt ref.number).isSome) (p : Payload) :
    Later heap (heap.replace ref p) := by
  unfold Heap.replace
  cases found : heap.object? ref with
  | none => exact Later.refl heap
  | some object =>
    have first := (Grown.retainAll heap p.refs).kept.later
    have second : Later _ ((heap.retainAll p.refs).setPayload ref p) :=
      Later.setPayload (by simpa using alive) p
    exact (first.trans second).trans (Kept.releaseAll _ _).later

/-! ### What holds of every payload -/

/-- A property of all payloads that have not been dropped. -/
def Every (P : Payload → Prop) (heap : Heap) : Prop := ∀ n p, heap.payloadAt n = some p → P p

section Every

variable {P : Payload → Prop} {after : Heap} {p : Payload}

theorem every_empty : Every P {} := fun n p h => by simp [payloadAt] at h

theorem Every.kept (every : heap.Every P) (kept : heap.Kept after)
    (length_eq : after.objects.length = heap.objects.length) : after.Every P := by
  intro n p hp
  have there : n < heap.objects.length := length_eq ▸ lt_length_of_payloadAt hp
  rcases kept.payload n there with same | gone
  · exact every n p (same ▸ hp)
  · rw [gone] at hp
    cases hp

theorem Every.create (every : heap.Every P) (tag : Tag) (hp : P p) :
    (heap.create tag p).2.Every P := by
  intro n q hq
  rw [payloadAt_create] at hq
  split at hq
  · cases hq
    exact hp
  · exact every n q hq

theorem Every.replace (every : heap.Every P) (ref : Ref) (hp : P p) :
    (heap.replace ref p).Every P := by
  unfold Heap.replace
  split
  · next object found =>
    have there : ref.number < (heap.retainAll p.refs).objects.length := by
      rw [length_retainAll]
      exact (List.getElem?_eq_some_iff.mp found).1
    have placed : ((heap.retainAll p.refs).setPayload ref p).Every P := by
      intro n q hq
      rw [payloadAt_setPayload there, payloadAt_retainAll] at hq
      split at hq
      · cases hq
        exact hp
      · exact every n q hq
    exact placed.kept (Kept.releaseAll _ _) (length_releaseAll _ _)
  · exact every

end Every

/-- Replacing a payload without references by itself does nothing. -/
theorem replace_self {ref : Ref} {p : Payload} (hp : heap.payloadAt ref.number = some p)
    (plain : p.refs = []) : heap.replace ref p = heap := by
  obtain ⟨object, found, hpayload⟩ := Option.bind_eq_some_iff.mp hp
  have hobject : heap.object? ref = some object := found
  have hset : heap.objects.set ref.number object = heap.objects := by
    obtain ⟨hlt, rfl⟩ := List.getElem?_eq_some_iff.mp found
    exact List.set_getElem_self hlt
  have hrefs : object.refs = [] := (refs_of_payloadAt found hp).trans plain
  have hsame : ({ object with payload := some p } : Object) = object := by
    rw [← hpayload]
  simp only [Heap.replace, hobject, plain, retainAll_nil, hrefs, Heap.setPayload, hsame,
    Heap.setObject, hset, Heap.releaseAll]

end ObjectBoundary.Heap
