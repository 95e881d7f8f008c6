import Mathlib.Algebra.Order.Ring.Nat
import ObjectBoundary.Object.Heap

/-!
# Reference counts

A heap is looked at by number: the tag, the payload and the count of each object. `Counted` says
that every count is the number of references that exist, some held outside the heap and the others
owned by payloads. Giving references back keeps it, however far the destruction goes.
-/

namespace ObjectBoundary

/-- How often an object is referred to in a list. -/
def occurrences (n : Nat) (refs : List Ref) : Nat := refs.countP (·.number == n)

@[simp] theorem occurrences_nil (n : Nat) : occurrences n [] = 0 := rfl

@[simp] theorem occurrences_cons (n : Nat) (ref : Ref) (refs : List Ref) :
    occurrences n (ref :: refs) = occurrences n refs + if ref.number = n then 1 else 0 := by
  simp [occurrences, List.countP_cons]

@[simp] theorem occurrences_append (n : Nat) (refs more : List Ref) :
    occurrences n (refs ++ more) = occurrences n refs + occurrences n more :=
  List.countP_append

theorem occurrences_pos {refs : List Ref} {ref : Ref} (hr : ref ∈ refs) :
    0 < occurrences ref.number refs :=
  List.countP_pos_iff.mpr ⟨ref, hr, by simp⟩

theorem mem_of_occurrences_pos {n : Nat} {refs : List Ref} (hn : 0 < occurrences n refs) :
    ∃ ref ∈ refs, ref.number = n := by
  obtain ⟨ref, hr, hn⟩ := List.countP_pos_iff.mp hn
  exact ⟨ref, hr, by simpa using hn⟩

namespace Heap

def tagAt (heap : Heap) (n : Nat) : Option Tag := heap.objects[n]?.map (·.tag)

/-- What an object is, unless it has been destroyed. -/
def payloadAt (heap : Heap) (n : Nat) : Option Payload := heap.objects[n]?.bind (·.payload)

def countAt (heap : Heap) (n : Nat) : Nat := (heap.objects[n]?.map (·.count)).getD 0

/-- How many of the references to an object are owned by objects. -/
def owns (heap : Heap) (n : Nat) : Nat := (heap.objects.map fun o => occurrences n o.refs).sum

theorem count_eq_countAt (heap : Heap) (ref : Ref) : heap.count ref = heap.countAt ref.number := by
  unfold count countAt object?
  cases heap.objects[ref.number]? <;> rfl

theorem payload?_eq_payloadAt (heap : Heap) (ref : Ref) :
    heap.payload? ref = heap.payloadAt ref.number := by
  unfold payload? payloadAt object?
  cases heap.objects[ref.number]? <;> rfl

theorem payloadAt_of_getElem? {heap : Heap} {n : Nat} {object : Object}
    (found : heap.objects[n]? = some object) : heap.payloadAt n = object.payload := by
  simp [payloadAt, found]

theorem tagAt_of_getElem? {heap : Heap} {n : Nat} {object : Object}
    (found : heap.objects[n]? = some object) : heap.tagAt n = some object.tag := by
  simp [tagAt, found]

theorem lt_length_of_payloadAt {heap : Heap} {n : Nat} {p : Payload}
    (hp : heap.payloadAt n = some p) : n < heap.objects.length := by
  obtain ⟨o, ho, _⟩ := Option.bind_eq_some_iff.mp hp
  exact (List.getElem?_eq_some_iff.mp ho).1

theorem lt_length_of_tagAt {heap : Heap} {n : Nat} {tag : Tag} (ht : heap.tagAt n = some tag) :
    n < heap.objects.length := by
  obtain ⟨o, ho, _⟩ := Option.map_eq_some_iff.mp ht
  exact (List.getElem?_eq_some_iff.mp ho).1

theorem lt_length_of_countAt {heap : Heap} {n : Nat} (hn : 0 < heap.countAt n) :
    n < heap.objects.length := by
  by_cases hlt : n < heap.objects.length
  · exact hlt
  · simp [countAt, List.getElem?_eq_none (Nat.le_of_not_lt hlt)] at hn

/-- The references that an object owns are those of its payload. -/
theorem refs_of_payloadAt {heap : Heap} {n : Nat} {o : Object} {p : Payload}
    (ho : heap.objects[n]? = some o) (hp : heap.payloadAt n = some p) : o.refs = p.refs := by
  unfold payloadAt at hp
  rw [ho] at hp
  simp only [Option.bind_some] at hp
  simp [Object.refs, hp]

section Summing

theorem sum_map_set (f : Object → Nat) (objects : List Object) (i : Nat) (old new : Object)
    (h : objects[i]? = some old) :
    ((objects.set i new).map f).sum + f old = (objects.map f).sum + f new := by
  induction objects generalizing i with
  | nil => simp at h
  | cons head rest ih =>
    cases i with
    | zero =>
      simp only [List.getElem?_cons_zero, Option.some.injEq] at h
      simp only [List.set_cons_zero, List.map_cons, List.sum_cons, h]
      omega
    | succ i =>
      have := ih i (by simpa using h)
      simp only [List.set_cons_succ, List.map_cons, List.sum_cons]
      omega

theorem le_sum_map (f : Object → Nat) (objects : List Object) (i : Nat) (o : Object)
    (h : objects[i]? = some o) : f o ≤ (objects.map f).sum := by
  induction objects generalizing i with
  | nil => simp at h
  | cons head rest ih =>
    cases i with
    | zero =>
      simp only [List.getElem?_cons_zero, Option.some.injEq] at h
      simp only [List.map_cons, List.sum_cons, h]
      omega
    | succ i =>
      have := ih i (by simpa using h)
      simp only [List.map_cons, List.sum_cons]
      omega

theorem exists_of_sum_map_pos (f : Object → Nat) (objects : List Object)
    (h : 0 < (objects.map f).sum) : ∃ (i : Nat) (o : Object), objects[i]? = some o ∧ 0 < f o := by
  induction objects with
  | nil => simp at h
  | cons head rest ih =>
    simp only [List.map_cons, List.sum_cons] at h
    by_cases hhead : 0 < f head
    · exact ⟨0, head, rfl, hhead⟩
    · obtain ⟨i, o, ho, hf⟩ := ih (by omega)
      exact ⟨i + 1, o, by simpa using ho, hf⟩

end Summing

/-- A payload owns the references that it lists. -/
theorem owns_pos {heap : Heap} {m : Nat} {p : Payload} {ref : Ref}
    (hp : heap.payloadAt m = some p) (hr : ref ∈ p.refs) : 0 < heap.owns ref.number := by
  obtain ⟨o, ho, hpayload⟩ := Option.bind_eq_some_iff.mp hp
  have hle := le_sum_map (fun o => occurrences ref.number o.refs) heap.objects m o ho
  have hpos : 0 < occurrences ref.number o.refs := by
    rw [refs_of_payloadAt ho hp]
    exact occurrences_pos hr
  exact Nat.lt_of_lt_of_le hpos hle

/-- Whatever is owned is listed in the payload of some object. -/
theorem owner_of_owns_pos {heap : Heap} {n : Nat} (hn : 0 < heap.owns n) :
    ∃ m p ref, heap.payloadAt m = some p ∧ ref ∈ p.refs ∧ ref.number = n := by
  obtain ⟨m, o, ho, hocc⟩ := exists_of_sum_map_pos _ heap.objects hn
  obtain ⟨ref, hr, hnumber⟩ := mem_of_occurrences_pos hocc
  cases hp : o.payload with
  | none => simp [Object.refs, hp] at hr
  | some p =>
    have hat : heap.payloadAt m = some p := by simp [payloadAt, ho, hp]
    exact ⟨m, p, ref, hat, refs_of_payloadAt ho hat ▸ hr, hnumber⟩

/-! ### Setting one object -/

section Setting

variable {heap : Heap} {ref : Ref} {old : Object}

theorem tagAt_setObject (found : heap.object? ref = some old) (new : Object) (n : Nat) :
    (heap.setObject ref new).tagAt n = if ref.number = n then some new.tag else heap.tagAt n := by
  have hlt := (List.getElem?_eq_some_iff.mp found).1
  by_cases hn : ref.number = n
  · subst hn
    simp [tagAt, setObject, hlt]
  · simp [tagAt, setObject, List.getElem?_set_ne hn, hn]

theorem payloadAt_setObject (found : heap.object? ref = some old) (new : Object) (n : Nat) :
    (heap.setObject ref new).payloadAt n =
      if ref.number = n then new.payload else heap.payloadAt n := by
  have hlt := (List.getElem?_eq_some_iff.mp found).1
  by_cases hn : ref.number = n
  · subst hn
    simp [payloadAt, setObject, hlt]
  · simp [payloadAt, setObject, List.getElem?_set_ne hn, hn]

theorem countAt_setObject (found : heap.object? ref = some old) (new : Object) (n : Nat) :
    (heap.setObject ref new).countAt n =
      if ref.number = n then new.count else heap.countAt n := by
  have hlt := (List.getElem?_eq_some_iff.mp found).1
  by_cases hn : ref.number = n
  · subst hn
    simp [countAt, setObject, hlt]
  · simp [countAt, setObject, List.getElem?_set_ne hn, hn]

theorem owns_setObject (found : heap.object? ref = some old) (new : Object) (n : Nat) :
    (heap.setObject ref new).owns n + occurrences n old.refs =
      heap.owns n + occurrences n new.refs :=
  sum_map_set (fun o => occurrences n o.refs) heap.objects ref.number old new found

@[simp] theorem length_setObject (new : Object) :
    (heap.setObject ref new).objects.length = heap.objects.length := by
  simp [setObject]

theorem countP_setObject (found : heap.object? ref = some old) (new : Object)
    (p : Object → Bool) (same : p new = p old) :
    (heap.setObject ref new).objects.countP p = heap.objects.countP p := by
  obtain ⟨hlt, hget⟩ := List.getElem?_eq_some_iff.mp found
  have hpos : p old → 0 < heap.objects.countP p := fun hp =>
    List.countP_pos_iff.mpr ⟨old, hget ▸ List.getElem_mem hlt, hp⟩
  simp only [setObject, List.countP_set hlt, hget, same]
  by_cases hp : p old
  · have := hpos hp
    simp only [hp, if_true]
    omega
  · simp [hp]

theorem views_of_object? (found : heap.object? ref = some old) :
    heap.tagAt ref.number = some old.tag ∧ heap.payloadAt ref.number = old.payload ∧
      heap.countAt ref.number = old.count := by
  have hget : heap.objects[ref.number]? = some old := found
  simp [tagAt, payloadAt, countAt, hget]

end Setting

/-! ### Taking references -/

section Taking

variable {heap : Heap}

@[simp] theorem retainAll_nil (heap : Heap) : heap.retainAll [] = heap := rfl

@[simp] theorem retainAll_cons (heap : Heap) (ref : Ref) (refs : List Ref) :
    heap.retainAll (ref :: refs) = (heap.retain ref).retainAll refs := rfl

@[simp] theorem tagAt_retainAll (heap : Heap) (refs : List Ref) (n : Nat) :
    (heap.retainAll refs).tagAt n = heap.tagAt n := by
  induction refs generalizing heap with
  | nil => rfl
  | cons ref refs ih =>
    rw [retainAll_cons, ih, retain]
    cases found : heap.object? ref with
    | none => rfl
    | some object =>
      simp only [tagAt_setObject found]
      by_cases hne : ref.number = n
      · rw [if_pos hne, ← hne, (views_of_object? found).1]
      · rw [if_neg hne]

@[simp] theorem payloadAt_retainAll (heap : Heap) (refs : List Ref) (n : Nat) :
    (heap.retainAll refs).payloadAt n = heap.payloadAt n := by
  induction refs generalizing heap with
  | nil => rfl
  | cons ref refs ih =>
    rw [retainAll_cons, ih, retain]
    cases found : heap.object? ref with
    | none => rfl
    | some object =>
      simp only [payloadAt_setObject found]
      by_cases hne : ref.number = n
      · rw [if_pos hne, ← hne, (views_of_object? found).2.1]
      · rw [if_neg hne]

@[simp] theorem length_retainAll (heap : Heap) (refs : List Ref) :
    (heap.retainAll refs).objects.length = heap.objects.length := by
  induction refs generalizing heap with
  | nil => rfl
  | cons ref refs ih =>
    rw [retainAll_cons, ih, retain]
    cases heap.object? ref <;> simp

theorem countAt_retainAll {refs : List Ref} (there : ∀ ref ∈ refs, ref.number < heap.objects.length)
    (n : Nat) : (heap.retainAll refs).countAt n = heap.countAt n + occurrences n refs := by
  induction refs generalizing heap with
  | nil => rfl
  | cons ref refs ih =>
    have hlt := there ref (by simp)
    have found : heap.object? ref = some heap.objects[ref.number] := List.getElem?_eq_getElem hlt
    have hretain : heap.retain ref = heap.setObject ref
        { heap.objects[ref.number] with count := heap.objects[ref.number].count + 1 } := by
      simp only [retain, found]
    rw [retainAll_cons, hretain, ih fun r hr => by simpa using there r (by simp [hr]),
      countAt_setObject found, occurrences_cons]
    by_cases hne : ref.number = n
    · rw [if_pos hne, if_pos hne, ← hne, (views_of_object? found).2.2]
      simp only
      omega
    · rw [if_neg hne, if_neg hne]
      omega

@[simp] theorem owns_retainAll (heap : Heap) (refs : List Ref) (n : Nat) :
    (heap.retainAll refs).owns n = heap.owns n := by
  induction refs generalizing heap with
  | nil => rfl
  | cons ref refs ih =>
    rw [retainAll_cons, ih, retain]
    cases found : heap.object? ref with
    | none => rfl
    | some object =>
      have howns := owns_setObject found { object with count := object.count + 1 } n
      simp only [Object.refs] at howns ⊢
      omega

@[simp] theorem created_retainAll (heap : Heap) (refs : List Ref) :
    (heap.retainAll refs).created = heap.created := by
  induction refs generalizing heap with
  | nil => rfl
  | cons ref refs ih =>
    rw [retainAll_cons, ih, retain]
    cases heap.object? ref <;> rfl

@[simp] theorem destroyed_retainAll (heap : Heap) (refs : List Ref) :
    (heap.retainAll refs).destroyed = heap.destroyed := by
  induction refs generalizing heap with
  | nil => rfl
  | cons ref refs ih =>
    rw [retainAll_cons, ih, retain]
    cases heap.object? ref <;> rfl

@[simp] theorem dead_retainAll (heap : Heap) (refs : List Ref) :
    (heap.retainAll refs).objects.countP (·.payload.isNone) =
      heap.objects.countP (·.payload.isNone) := by
  induction refs generalizing heap with
  | nil => rfl
  | cons ref refs ih =>
    rw [retainAll_cons, ih, retain]
    cases found : heap.object? ref with
    | none => rfl
    | some object => exact countP_setObject found _ _ rfl

end Taking

/-! ### The accounting -/

/-- Every count is the number of references held outside the heap and owned within it. An object
without references has been destroyed, unless it is one of those that were just made. -/
structure Balanced (held : Nat → Nat) (made : List Nat) (heap : Heap) : Prop where
  counts : ∀ n, heap.countAt n = held n + heap.owns n
  counted_alive : ∀ n, 0 < heap.countAt n → (heap.payloadAt n).isSome
  alive_counted : ∀ n, (heap.payloadAt n).isSome → 0 < heap.countAt n ∨ n ∈ made

/-- Moreover, every object was created once, and those without a payload were destroyed once. -/
structure Counted (held : Nat → Nat) (made : List Nat) (heap : Heap) : Prop
    extends Balanced held made heap where
  created_eq : heap.created = heap.objects.length
  destroyed_eq : heap.destroyed = heap.objects.countP (·.payload.isNone)

theorem counted_empty : Counted (fun _ => 0) [] {} := by
  refine ⟨⟨?_, ?_, ?_⟩, ?_, ?_⟩ <;> simp [countAt, payloadAt, owns]

section Accounting

variable {held held' : Nat → Nat} {made made' : List Nat} {heap : Heap}

theorem Counted.congr (counted : Counted held made heap) (same : ∀ n, held' n = held n) :
    Counted held' made heap := by
  have hheld : held' = held := funext same
  rwa [hheld]

/-- Objects that have got a reference, or were destroyed, are no longer among those just made. -/
theorem Counted.settle (counted : Counted held made heap)
    (settled : ∀ n ∈ made, (heap.payloadAt n).isSome → n ∈ made' ∨ 0 < heap.countAt n) :
    Counted held made' heap := by
  refine ⟨⟨counted.counts, counted.counted_alive, ?_⟩, counted.created_eq, counted.destroyed_eq⟩
  intro n hn
  rcases counted.alive_counted n hn with hcount | hmade
  · exact .inl hcount
  · exact (settled n hmade hn).symm

theorem Balanced.alive_of_held (balanced : Balanced held made heap) {n : Nat} (hn : 0 < held n) :
    (heap.payloadAt n).isSome := by
  apply balanced.counted_alive
  rw [balanced.counts]
  omega

theorem Balanced.alive_of_owned (balanced : Balanced held made heap) {m : Nat} {p : Payload}
    {ref : Ref} (hp : heap.payloadAt m = some p) (hr : ref ∈ p.refs) :
    (heap.payloadAt ref.number).isSome := by
  have hpos := owns_pos hp hr
  apply balanced.counted_alive
  rw [balanced.counts]
  omega

/-- There are no references to a number that no object has. -/
theorem Balanced.beyond (balanced : Balanced held made heap) {n : Nat}
    (hn : heap.objects.length ≤ n) : held n = 0 ∧ heap.owns n = 0 := by
  have hcounts := balanced.counts n
  have hzero : heap.countAt n = 0 := by simp [countAt, List.getElem?_eq_none hn]
  omega

/-- One object changes, and the references held outside change by what it owned and owns. -/
theorem Balanced.setObject (balanced : Balanced held made heap) {ref : Ref} {old : Object}
    (found : heap.object? ref = some old) (new : Object)
    (counts : ∀ n, (if ref.number = n then new.count else heap.countAt n) +
      occurrences n old.refs = held' n + heap.owns n + occurrences n new.refs)
    (counted_alive : 0 < new.count → new.payload.isSome)
    (alive_counted : new.payload.isSome → 0 < new.count ∨ ref.number ∈ made) :
    Balanced held' made (heap.setObject ref new) := by
  constructor
  · intro n
    have howns := owns_setObject found new n
    have hn := counts n
    rw [countAt_setObject found]
    omega
  · intro n hn
    rw [countAt_setObject found] at hn
    rw [payloadAt_setObject found]
    by_cases hne : ref.number = n
    · rw [if_pos hne] at hn ⊢
      exact counted_alive hn
    · rw [if_neg hne] at hn ⊢
      exact balanced.counted_alive n hn
  · intro n hn
    rw [payloadAt_setObject found] at hn
    rw [countAt_setObject found]
    by_cases hne : ref.number = n
    · rw [if_pos hne] at hn ⊢
      exact hne ▸ alive_counted hn
    · rw [if_neg hne] at hn ⊢
      exact balanced.alive_counted n hn

/-- One object changes and stays what it is, alive or destroyed. -/
theorem Counted.setObject (counted : Counted held made heap) {ref : Ref} {old new : Object}
    (found : heap.object? ref = some old) (same : new.payload.isNone = old.payload.isNone)
    (balanced : Balanced held' made (heap.setObject ref new)) :
    Counted held' made (heap.setObject ref new) := by
  refine ⟨balanced, ?_, ?_⟩
  · rw [length_setObject]
    exact counted.created_eq
  · rw [countP_setObject found new _ same]
    exact counted.destroyed_eq

/-- The payload of one object is dropped, so its references have to be given back. -/
theorem Counted.destroy (counted : Counted held made heap) {ref : Ref} {object : Object}
    (found : heap.object? ref = some object) (alive : object.payload.isSome)
    (counts : ∀ n, (if ref.number = n then 0 else heap.countAt n) + occurrences n object.refs =
      held' n + heap.owns n) : Counted held' made (heap.destroy ref object) := by
  obtain ⟨hlt, hget⟩ := List.getElem?_eq_some_iff.mp found
  have balanced := counted.toBalanced.setObject found { object with count := 0, payload := none }
    counts (fun hn => absurd hn (Nat.lt_irrefl 0)) (fun hn => nomatch hn)
  refine ⟨⟨balanced.counts, balanced.counted_alive, balanced.alive_counted⟩, ?_, ?_⟩
  · simp only [Heap.destroy, length_setObject]
    exact counted.created_eq
  · have hsome : object.payload.isNone = false := by
      cases hp : object.payload <;> simp_all
    simp only [Heap.destroy, Heap.setObject, List.countP_set hlt, hget, hsome]
    simp [counted.destroyed_eq]

/-- Giving references back, with all the destruction that follows from it, leaves the counts of the
others right. -/
theorem Counted.releaseAll {refs : List Ref}
    (counted : Counted (fun n => held n + occurrences n refs) made heap) :
    Counted held made (heap.releaseAll refs) := by
  -- The references still to be given back are counted as held.
  fun_induction Heap.releaseAll heap refs with
  | case1 heap => exact counted.congr (by simp)
  | case2 heap ref rest found ih =>
    -- A number that no object has cannot be owed.
    have hlen : heap.objects.length ≤ ref.number := List.getElem?_eq_none_iff.mp found
    have hbeyond := (counted.beyond hlen).1
    simp at hbeyond
  | case3 heap ref rest object found hone ih =>
    apply ih
    obtain ⟨_, hpayload, hcount⟩ := views_of_object? found
    have halive : object.payload.isSome := by
      rw [← hpayload]
      apply counted.counted_alive
      omega
    apply counted.destroy found halive
    intro n
    have hn := counted.counts n
    have hle := le_sum_map (fun o => occurrences n o.refs) heap.objects _ _ found
    change occurrences n object.refs ≤ heap.owns n at hle
    simp only [occurrences_cons] at hn
    simp only [occurrences_append]
    by_cases hne : ref.number = n
    · subst hne
      simp only [if_true] at hn ⊢
      omega
    · simp only [if_neg hne] at hn ⊢
      omega
  | case4 heap ref rest object found hone ih =>
    apply ih
    obtain ⟨_, hpayload, hcount⟩ := views_of_object? found
    have hat := counted.counts ref.number
    simp only [occurrences_cons, if_true] at hat
    have hleft : 0 < object.count - 1 := by omega
    refine counted.setObject found ?_
      (counted.toBalanced.setObject found _ ?_ (fun _ => ?_) (fun _ => .inl hleft))
    · rfl
    · intro n
      have hn := counted.counts n
      simp only [occurrences_cons] at hn
      simp only [Object.refs]
      by_cases hne : ref.number = n
      · subst hne
        simp only [if_true] at hn ⊢
        omega
      · simp only [if_neg hne] at hn ⊢
        omega
    · rw [← hpayload]
      apply counted.counted_alive
      omega

/-- New references to objects that are there are counted. -/
theorem Counted.retainAll (counted : Counted held made heap) {refs : List Ref}
    (alive : ∀ ref ∈ refs, (heap.payloadAt ref.number).isSome) :
    Counted (fun n => held n + occurrences n refs) made (heap.retainAll refs) := by
  have there : ∀ ref ∈ refs, ref.number < heap.objects.length := by
    intro ref hr
    obtain ⟨p, hp⟩ := Option.isSome_iff_exists.mp (alive ref hr)
    exact lt_length_of_payloadAt hp
  have hcount := countAt_retainAll there
  refine ⟨⟨?_, ?_, ?_⟩, ?_, ?_⟩
  · intro n
    have := counted.counts n
    rw [hcount, owns_retainAll]
    omega
  · intro n hn
    rw [hcount] at hn
    rw [payloadAt_retainAll]
    by_cases hocc : 0 < occurrences n refs
    · obtain ⟨ref, hr, rfl⟩ := mem_of_occurrences_pos hocc
      exact alive ref hr
    · exact counted.counted_alive n (by omega)
  · intro n hn
    rw [payloadAt_retainAll] at hn
    rw [hcount]
    rcases counted.alive_counted n hn with hpos | hmade
    · exact .inl (by omega)
    · exact .inr hmade
  · rw [created_retainAll, length_retainAll]
    exact counted.created_eq
  · rw [destroyed_retainAll, dead_retainAll]
    exact counted.destroyed_eq

end Accounting

end Heap

end ObjectBoundary
