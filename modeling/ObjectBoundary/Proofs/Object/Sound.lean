import ObjectBoundary.Proofs.Object.Change
import ObjectBoundary.Proofs.Tasks.Registered

/-!
# Sound heaps

In a sound heap the counts are right and every payload fits the tag of its object: projects list
tasks, managers list projects, and collections hold objects of interfaces. Every operation of the
heap keeps this.
-/

namespace ObjectBoundary

namespace Tag

def isInterface : Tag → Bool
  | .interface _ => true
  | _ => false

end Tag

namespace Payload

/-- Whether a payload may stand in an object of a tag. -/
def Fits (tag : Tag) : Payload → Prop
  | .text _ => tag = .string
  | .collection c => tag = c.kind.tag ∧ ∀ ref ∈ c.refs, ref.tag.isInterface
  | .task _ => tag = .interface TaskModel.ids.task
  | .project p =>
    tag = .interface TaskModel.ids.project ∧
      ∀ ref ∈ p.tasks, ref.tag = .interface TaskModel.ids.task
  | .manager m =>
    tag = .interface TaskModel.ids.manager ∧
      ∀ ref ∈ m.projects, ref.tag = .interface TaskModel.ids.project
  | .scripted _ => False

/-- What a payload refers to is an object of an interface. -/
theorem Fits.isInterface_of_mem {tag : Tag} {p : Payload} (fits : p.Fits tag) {ref : Ref}
    (member : ref ∈ p.refs) : ref.tag.isInterface = true := by
  cases p with
  | text value => cases member
  | task content => cases member
  | collection c => exact fits.2 ref member
  | project content =>
    rw [fits.2 ref member]
    rfl
  | manager content =>
    rw [fits.2 ref member]
    rfl
  | scripted content => cases fits

/-- In an object with the tag of strings is a text. -/
theorem Fits.exists_text {p : Payload} (fits : p.Fits .string) : ∃ text, p = .text text := by
  cases p with
  | text content => exact ⟨content, rfl⟩
  | collection c =>
    obtain ⟨kind⟩ := c
    cases kind <;> cases fits.1
  | task => cases fits
  | project | manager => cases fits.1
  | scripted => exact fits.elim

/-- In an object with the tag of a collection is a collection. -/
theorem Fits.exists_collection {kind : CollectionKind} {p : Payload} (fits : p.Fits kind.tag) :
    ∃ c, p = .collection c := by
  cases p with
  | collection c => exact ⟨c, rfl⟩
  | text | task => cases kind <;> cases fits
  | project | manager => cases kind <;> cases fits.1
  | scripted => exact fits.elim

/-- In an object with the tag of tasks is a task. -/
theorem Fits.exists_task {p : Payload} (fits : p.Fits (.interface TaskModel.ids.task)) :
    ∃ t, p = .task t := by
  cases p with
  | task t => exact ⟨t, rfl⟩
  | collection c =>
    obtain ⟨kind⟩ := c
    cases kind <;> cases fits.1
  | text => cases fits
  | project | manager => cases fits.1
  | scripted => exact fits.elim

/-- In an object with the tag of projects is a project. -/
theorem Fits.exists_project {p : Payload} (fits : p.Fits (.interface TaskModel.ids.project)) :
    ∃ q, p = .project q := by
  cases p with
  | project q => exact ⟨q, rfl⟩
  | collection c =>
    obtain ⟨kind⟩ := c
    cases kind <;> cases fits.1
  | text | task => cases fits
  | manager => cases fits.1
  | scripted => exact fits.elim

end Payload

namespace Heap

/-- The object of a reference exists; it may have been destroyed. -/
def Has (heap : Heap) (ref : Ref) : Prop := heap.tagAt ref.number = some ref.tag

/-- The object of a reference has not been destroyed. -/
structure Holds (heap : Heap) (ref : Ref) : Prop where
  has : heap.Has ref
  alive : (heap.payloadAt ref.number).isSome

theorem Has.lt_length {heap : Heap} {ref : Ref} (has : heap.Has ref) :
    ref.number < heap.objects.length := lt_length_of_tagAt has

theorem Has.evolves {allowed : Option Payload → Option Payload → Prop} {before after : Heap}
    {ref : Ref} (has : before.Has ref) (evolves : Evolves allowed before after) :
    after.Has ref := by
  unfold Has
  rw [evolves.tag_eq ref.number has.lt_length]
  exact has

/-- No object is new when there are as many as before. -/
theorem Has.of_evolves {allowed : Option Payload → Option Payload → Prop} {before after : Heap}
    {ref : Ref} (has : after.Has ref) (evolves : Evolves allowed before after)
    (length_eq : after.objects.length = before.objects.length) : before.Has ref := by
  have hlt : ref.number < before.objects.length := length_eq ▸ has.lt_length
  exact (evolves.tag_eq ref.number hlt).symm.trans has

theorem Holds.grown {before after : Heap} {ref : Ref} (holds : before.Holds ref)
    (grown : Grown before after) : after.Holds ref := by
  refine ⟨holds.has.evolves grown, ?_⟩
  rw [grown.payload ref.number holds.has.lt_length]
  exact holds.alive

theorem Holds.payload {heap : Heap} {ref : Ref} (holds : heap.Holds ref) :
    ∃ p, heap.payloadAt ref.number = some p :=
  Option.isSome_iff_exists.mp holds.alive

/-- The counts are right, and every payload fits its object and refers to objects that exist. -/
structure Sound (held : Nat → Nat) (made : List Nat) (heap : Heap) : Prop
    extends Counted held made heap where
  fits : ∀ {n p tag}, heap.payloadAt n = some p → heap.tagAt n = some tag → p.Fits tag
  has : ∀ {n p ref}, heap.payloadAt n = some p → ref ∈ p.refs → heap.Has ref

section Operations

variable {held held' : Nat → Nat} {made made' : List Nat} {heap after : Heap}

theorem sound_empty : Sound (fun _ => 0) [] {} where
  toCounted := counted_empty
  fits := by simp [payloadAt]
  has := by simp [payloadAt]

theorem Sound.congr (sound : Sound held made heap) (same : ∀ n, held' n = held n) :
    Sound held' made heap := ⟨sound.toCounted.congr same, sound.fits, sound.has⟩

theorem Sound.settle (sound : Sound held made heap)
    (settled : ∀ n ∈ made, (heap.payloadAt n).isSome → n ∈ made' ∨ 0 < heap.countAt n) :
    Sound held made' heap :=
  ⟨sound.toCounted.settle settled, sound.fits, sound.has⟩

/-- What a payload refers to has not been destroyed. -/
theorem Sound.holds_owned (sound : Sound held made heap) {m : Nat} {p : Payload} {ref : Ref}
    (hp : heap.payloadAt m = some p) (hr : ref ∈ p.refs) : heap.Holds ref :=
  ⟨sound.has hp hr, sound.alive_of_owned hp hr⟩

theorem Sound.holds_held (sound : Sound held made heap) {ref : Ref} (has : heap.Has ref)
    (hn : 0 < held ref.number) : heap.Holds ref := ⟨has, sound.alive_of_held hn⟩

theorem Sound.fits_of_holds (sound : Sound held made heap) {ref : Ref} {p : Payload}
    (has : heap.Has ref) (hp : heap.payloadAt ref.number = some p) : p.Fits ref.tag :=
  sound.fits hp has

/-- Dropping payloads leaves the others as they fit. -/
theorem Sound.of_kept (sound : Sound held made heap) (kept : Kept heap after)
    (length_eq : after.objects.length = heap.objects.length)
    (counted : Counted held' made' after) : Sound held' made' after := by
  have same : ∀ {n p}, after.payloadAt n = some p →
      n < heap.objects.length ∧ heap.payloadAt n = some p := by
    intro n p hp
    have hlt : n < heap.objects.length := length_eq ▸ lt_length_of_payloadAt hp
    refine ⟨hlt, ?_⟩
    rcases kept.payload n hlt with heq | hnone
    · rw [← heq, hp]
    · rw [hnone] at hp
      cases hp
  refine ⟨counted, ?_, ?_⟩
  · intro n p tag hp ht
    obtain ⟨hlt, hp⟩ := same hp
    rw [kept.tag_eq n hlt] at ht
    exact sound.fits hp ht
  · intro n p ref hp hr
    exact (sound.has (same hp).2 hr).evolves kept

theorem Sound.retainAll (sound : Sound held made heap) {refs : List Ref}
    (alive : ∀ ref ∈ refs, (heap.payloadAt ref.number).isSome) :
    Sound (fun n => held n + occurrences n refs) made (heap.retainAll refs) :=
  sound.of_kept (Grown.retainAll heap refs).kept (length_retainAll heap refs)
    (sound.toCounted.retainAll alive)

theorem Sound.releaseAll {refs : List Ref}
    (sound : Sound (fun n => held n + occurrences n refs) made heap) :
    Sound held made (heap.releaseAll refs) :=
  sound.of_kept (Kept.releaseAll heap refs) (length_releaseAll heap refs)
    sound.toCounted.releaseAll

/-- A new object owns the references in its payload, and there is none to it yet. -/
theorem Counted.create (counted : Counted held made heap) {tag : Tag} {p : Payload}
    (holds : ∀ ref ∈ p.refs, heap.Holds ref) :
    Counted held (heap.objects.length :: made) (heap.create tag p).2 := by
  let fresh : Heap :=
    { heap with
      objects := heap.objects ++ [⟨tag, 0, some p⟩]
      created := heap.created + 1 }
  have hfresh : (heap.create tag p).2 = fresh.retainAll p.refs := rfl
  have there : ∀ ref ∈ p.refs, ref.number < fresh.objects.length := by
    intro ref hr
    have := (holds ref hr).has.lt_length
    simp only [fresh, List.length_append, List.length_singleton]
    omega
  have hcount : ∀ n, (heap.create tag p).2.countAt n = heap.countAt n + occurrences n p.refs := by
    intro n
    rw [hfresh, countAt_retainAll there]
    by_cases hn : n = heap.objects.length
    · simp [countAt, fresh, hn]
    · simp [countAt, fresh, getElem?_concat, hn]
  have howns : ∀ n, (heap.create tag p).2.owns n = heap.owns n + occurrences n p.refs := by
    intro n
    rw [hfresh, owns_retainAll]
    simp [owns, fresh, Object.refs]
  refine ⟨⟨?_, ?_, ?_⟩, ?_, ?_⟩
  · intro n
    have := counted.counts n
    rw [hcount, howns]
    omega
  · intro n hn
    rw [hcount] at hn
    rw [payloadAt_create]
    by_cases hlast : n = heap.objects.length
    · simp [hlast]
    · rw [if_neg hlast]
      by_cases hocc : 0 < occurrences n p.refs
      · obtain ⟨ref, hr, rfl⟩ := mem_of_occurrences_pos hocc
        exact (holds ref hr).alive
      · exact counted.counted_alive n (by omega)
  · intro n hn
    rw [payloadAt_create] at hn
    by_cases hlast : n = heap.objects.length
    · exact .inr (by simp [hlast])
    · rw [if_neg hlast] at hn
      rw [hcount]
      rcases counted.alive_counted n hn with hpos | hmade
      · exact .inl (by omega)
      · exact .inr (List.mem_cons_of_mem _ hmade)
  · rw [length_create, hfresh, created_retainAll]
    simp only [fresh, counted.created_eq]
  · rw [hfresh, destroyed_retainAll, dead_retainAll]
    simp [fresh, counted.destroyed_eq]

theorem Sound.create (sound : Sound held made heap) {tag : Tag} {p : Payload} (fits : p.Fits tag)
    (holds : ∀ ref ∈ p.refs, heap.Holds ref) :
    Sound held (heap.objects.length :: made) (heap.create tag p).2 := by
  have grown := Grown.create heap tag p
  refine ⟨sound.toCounted.create holds, ?_, ?_⟩
  · intro n q t hq ht
    rw [payloadAt_create] at hq
    rw [tagAt_create] at ht
    by_cases hlast : n = heap.objects.length
    · rw [if_pos hlast] at hq ht
      cases hq
      cases ht
      exact fits
    · rw [if_neg hlast] at hq ht
      exact sound.fits hq ht
  · intro n q ref hq hr
    rw [payloadAt_create] at hq
    by_cases hlast : n = heap.objects.length
    · rw [if_pos hlast] at hq
      cases hq
      exact (holds ref hr).has.evolves grown
    · rw [if_neg hlast] at hq
      exact (sound.has hq hr).evolves grown

/-- An object that has not been destroyed gets another payload, which pays for its references with
those that were held. -/
theorem Counted.setPayload {ref : Ref} {old new : Payload}
    (counted : Counted (fun n => held n + occurrences n new.refs) made heap)
    (hold : heap.payloadAt ref.number = some old) :
    Counted (fun n => held n + occurrences n old.refs) made (heap.setPayload ref new) := by
  unfold Heap.setPayload
  cases found : heap.object? ref with
  | none =>
    have hlt := lt_length_of_payloadAt hold
    rw [Heap.object?, List.getElem?_eq_getElem hlt] at found
    cases found
  | some object =>
    obtain ⟨_, hpayload, hcount⟩ := views_of_object? found
    have hsome : object.payload = some old := hpayload.symm.trans hold
    refine counted.setObject found ?_
      (counted.toBalanced.setObject found _ ?_ (fun _ => rfl) (fun _ => ?_))
    · simp [hsome]
    · intro n
      have hn := counted.counts n
      simp only [Object.refs, hsome]
      by_cases hne : ref.number = n
      · subst hne
        simp only [if_true]
        omega
      · simp only [if_neg hne]
        omega
    · have := counted.alive_counted ref.number (by simp [hold])
      rwa [hcount] at this

/-- Replacing a payload keeps the heap sound. -/
theorem Sound.replace (sound : Sound held made heap) {ref : Ref} {new : Payload}
    (holds : heap.Holds ref) (fits : new.Fits ref.tag) (refs : ∀ r ∈ new.refs, heap.Holds r) :
    Sound held made (heap.replace ref new) := by
  obtain ⟨old, hold⟩ := holds.payload
  cases found : heap.object? ref with
  | none =>
    have hlt := holds.has.lt_length
    rw [Heap.object?, List.getElem?_eq_getElem hlt] at found
    cases found
  | some object =>
    have hrefs : object.refs = old.refs := refs_of_payloadAt found hold
    have retained := sound.retainAll fun r hr => (refs r hr).alive
    have later : Later (heap.retainAll new.refs) ((heap.retainAll new.refs).setPayload ref new) :=
      Later.setPayload (by simp [hold]) new
    have hpayload : ∀ n, ((heap.retainAll new.refs).setPayload ref new).payloadAt n =
        if ref.number = n then some new else heap.payloadAt n := by
      intro n
      rw [payloadAt_setPayload (by simpa using holds.has.lt_length), payloadAt_retainAll]
    have placed : Sound (fun n => held n + occurrences n old.refs) made
        ((heap.retainAll new.refs).setPayload ref new) := by
      refine ⟨retained.toCounted.setPayload (by simpa using hold), ?_, ?_⟩
      · intro n p tag hp ht
        rw [hpayload] at hp
        by_cases hne : ref.number = n
        · rw [if_pos hne] at hp
          cases hp
          have htag := later.tag_eq ref.number (by simpa using holds.has.lt_length)
          rw [tagAt_retainAll, holds.has, hne, ht] at htag
          cases htag
          exact fits
        · rw [if_neg hne] at hp
          rw [later.tag_eq n (by simpa using lt_length_of_payloadAt hp), tagAt_retainAll] at ht
          exact sound.fits hp ht
      · intro n p r hp hr
        have there : (heap.retainAll new.refs).Has r := by
          unfold Has
          rw [tagAt_retainAll]
          rw [hpayload] at hp
          by_cases hne : ref.number = n
          · rw [if_pos hne] at hp
            cases hp
            exact (refs r hr).has
          · rw [if_neg hne] at hp
            exact sound.has hp hr
        exact there.evolves later
    simp only [Heap.replace, found, hrefs]
    exact placed.releaseAll

/-- An object that is held outside keeps the payload that it was given. -/
theorem Sound.payloadAt_replace (sound : Sound held made heap) {ref : Ref} {new : Payload}
    (holds : heap.Holds ref) (fits : new.Fits ref.tag) (refs : ∀ r ∈ new.refs, heap.Holds r)
    (hheld : 0 < held ref.number) : (heap.replace ref new).payloadAt ref.number = some new := by
  have alive := (sound.replace holds fits refs).alive_of_held hheld
  have hlt : ref.number < (heap.retainAll new.refs).objects.length := by
    simpa using holds.has.lt_length
  have there := holds.has.lt_length
  have found : heap.object? ref = some heap.objects[ref.number] := List.getElem?_eq_getElem there
  simp only [Heap.replace, found] at alive ⊢
  have later : Later _ ((heap.retainAll new.refs).setPayload ref new) :=
    Later.setPayload (by simpa using holds.alive) new
  rcases (Kept.releaseAll ((heap.retainAll new.refs).setPayload ref new) _).payload ref.number
    (Nat.lt_of_lt_of_le hlt later.length_le) with heq | hnone
  · rw [heq, payloadAt_setPayload hlt, if_pos rfl]
  · rw [hnone] at alive
    cases alive

/-- An object that was just made and is not wanted is destroyed. -/
theorem Sound.collect {ref : Ref} (sound : Sound held (ref.number :: made) heap) :
    Sound held made (heap.collect ref) := by
  have counted : Counted held (ref.number :: made) (heap.collect ref) ∧
      ((heap.collect ref).payloadAt ref.number = none ∨
        0 < (heap.collect ref).countAt ref.number) := by
    unfold Heap.collect
    cases found : heap.object? ref with
    | none =>
      refine ⟨sound.toCounted, .inl ?_⟩
      have hnone : heap.objects[ref.number]? = none := found
      simp [payloadAt, hnone]
    | some object =>
      obtain ⟨_, hpayload, hcount⟩ := views_of_object? found
      by_cases hfloat : object.count = 0 ∧ object.payload.isSome
      · simp only [if_pos hfloat]
        have kept := Kept.releaseAll (heap.destroy ref object) object.refs
        have hlt := (List.getElem?_eq_some_iff.mp found).1
        have hdropped : (heap.destroy ref object).payloadAt ref.number = none := by
          have := payloadAt_setObject found { object with count := 0, payload := none } ref.number
          rwa [if_pos rfl] at this
        refine ⟨Counted.releaseAll (sound.toCounted.destroy found hfloat.2 fun n => ?_), .inl ?_⟩
        · have hn := sound.counts n
          by_cases hne : ref.number = n
          · subst hne
            rw [if_pos rfl]
            omega
          · rw [if_neg hne]
            omega
        · rcases kept.payload ref.number (by simpa [Heap.destroy] using hlt) with heq | hnone
          · rw [heq, hdropped]
          · exact hnone
      · simp only [if_neg hfloat]
        refine ⟨sound.toCounted, ?_⟩
        rw [hpayload, hcount]
        cases hp : object.payload with
        | none => exact .inl rfl
        | some p =>
          right
          simp only [hp, Option.isSome_some, and_true] at hfloat
          omega
  refine sound.of_kept (Kept.collect heap ref) (length_collect heap ref)
    (counted.1.settle fun n hn halive => ?_)
  rcases List.mem_cons.mp hn with rfl | hn
  · rcases counted.2 with hnone | hpos
    · simp [hnone] at halive
    · exact .inr hpos
  · exact .inl hn

end Operations

end Heap

end ObjectBoundary
