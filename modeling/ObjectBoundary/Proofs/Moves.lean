import ObjectBoundary.Proofs.Object.Forest
import ObjectBoundary.Proofs.Tasks.Clean

/-!
# What a request does to objects

Every request is a sequence of moves: it counts references and drops objects, makes plain objects,
brings a task or a project into being, restores one from a file, or changes the one object that it
is about. From this follows what a request leaves alone, that no object gets on two lists, that
clean texts stay clean, which ids there are, and where due dates come from.
-/

namespace ObjectBoundary

/-- The two kinds of objects that have ids. -/
inductive IdKind where
  | task
  | project
  deriving DecidableEq, Repr

/-- How the generated ids of a kind begin. -/
def IdKind.start : IdKind → String
  | .task => "task-"
  | .project => "proj-"

def Payload.identity? : Payload → Option (IdKind × String)
  | .task t => some (.task, t.id)
  | .project p => some (.project, p.id)
  | _ => none

def Payload.due? : Payload → Option String
  | .task t => some t.dueDate
  | _ => none

/-- Whatever is due is due at no date or at a date. -/
def Payload.Dated (p : Payload) : Prop := ∀ due, p.due? = some due → Task.IsDueDate due

theorem Payload.dated_of_plain {p : Payload} (plain : p.identity? = none) : p.Dated := by
  intro due found
  cases p with
  | task t => cases plain
  | _ => cases found

/-- A collection is on its first entry, and a text is clean. -/
def Payload.Pristine : Payload → Prop
  | .collection c => c.cursor = 0
  | .text content => Text.Clean content
  | _ => True

theorem Payload.pristine_of_identity {p : Payload} {identity : IdKind × String}
    (named : p.identity? = some identity) : p.Pristine := by
  cases p with
  | collection c => cases named
  | text text => cases named
  | _ => trivial

/-- What a request is about: the number of the object that it may change, whether it restores
objects from a file, whether all texts that it meets are clean, and the due dates that files
bring. -/
structure Errand where
  subject : Option Nat
  loads : Prop
  clean : Prop
  brings : String → Prop

namespace State

def counter (s : State) : IdKind → UInt64
  | .task => s.nextTask
  | .project => s.nextProject

def nextId (s : State) (kind : IdKind) : String :=
  kind.start ++ Text.decimal (s.counter kind).toNat

def draw (s : State) : IdKind → State
  | .task => { s with nextTask := s.nextTask + 1 }
  | .project => { s with nextProject := s.nextProject + 1 }

/-- One move, with the ids that it brings. -/
inductive Move (errand : Errand) (s : State) : List (IdKind × String) → State → Prop where
  /-- References are counted, objects are dropped, and all else that is no object may change. -/
  | aside {t : State} (kept : s.heap.Kept t.heap)
      (length_eq : t.heap.objects.length = s.heap.objects.length)
      (counter_eq : ∀ kind, t.counter kind = s.counter kind) : Move errand s [] t
  /-- An object without an id and without a list is made. -/
  | make (tag : Tag) {p : Payload} (plain : p.identity? = none) (childless : p.children = [])
      (clean : errand.clean → p.Clean) (pristine : p.Pristine) : Move errand s [] (s.withNew tag p)
  /-- An object is made with the next id of its kind. -/
  | bear (kind : IdKind) (tag : Tag) {p : Payload}
      (identity : p.identity? = some (kind, s.nextId kind)) (childless : p.children = [])
      (clean : errand.clean → p.Clean) (generates : ¬ errand.loads) (dated : p.Dated) :
      Move errand s [(kind, s.nextId kind)] ((s.draw kind).withNew tag p)
  /-- An object is made with an id that it brings along. -/
  | restore (tag : Tag) {p : Payload} {kind : IdKind} {id : String}
      (identity : p.identity? = some (kind, id)) (unlisted : s.heap.Unlisted p.children)
      (clean : errand.clean → p.Clean) (loads : errand.loads)
      (brought : ∀ due, p.due? = some due → errand.brings due) :
      Move errand s [(kind, id)] ((s.observeId id).withNew tag p)
  /-- The object that the request is about changes and keeps its id. It is no text, and a due date
  that is set is checked. -/
  | change {self : Ref} {p p' : Payload} (subject : errand.subject = some self.number)
      (old : s.heap.payloadAt self.number = some p) (identity : p'.identity? = p.identity?)
      (relists : s.heap.Relists p.children p'.children) (clean : errand.clean → p'.Clean)
      (dated : p'.due? = p.due? ∨ p'.Dated) (wordless : ∀ text, p' ≠ .text text) :
      Move errand s [] (s.withPayload self p')

/-- Moves one after another, with the ids that they bring. -/
inductive Moves (errand : Errand) (s : State) : List (IdKind × String) → State → Prop where
  | refl : Moves errand s [] s
  | step {ids new : List (IdKind × String)} {t u : State} (moves : Moves errand s ids t)
      (move : t.Move errand new u) : Moves errand s (ids ++ new) u

variable {errand : Errand} {s t u : State} {ids more : List (IdKind × String)} {n : Nat}

theorem Moves.trans (first : s.Moves errand ids t) (second : t.Moves errand more u) :
    s.Moves errand (ids ++ more) u := by
  induction second with
  | refl => rwa [List.append_nil]
  | step _ move ih =>
    rw [← List.append_assoc]
    exact ih.step move

theorem Move.moves (move : s.Move errand ids t) : s.Moves errand ids t := Moves.refl.step move

/-! ### What a move keeps -/

theorem heap_observeId (s : State) (id : String) : (s.observeId id).heap = s.heap := by
  unfold observeId
  split
  · rfl
  · split <;> rfl

theorem heap_draw (s : State) (kind : IdKind) : (s.draw kind).heap = s.heap := by
  cases kind <;> rfl

/-- Objects other than the subject stay as they are, unless they are dropped. -/
structure Framed (errand : Errand) (s t : State) : Prop where
  length_le : s.heap.objects.length ≤ t.heap.objects.length
  payload : ∀ n, n < s.heap.objects.length → errand.subject ≠ some n →
    t.heap.payloadAt n = s.heap.payloadAt n ∨ t.heap.payloadAt n = none

theorem Framed.of_kept (kept : s.heap.Kept t.heap) : s.Framed errand t :=
  ⟨kept.length_le, fun n small _ => kept.payload n small⟩

theorem Framed.trans (first : s.Framed errand t) (second : t.Framed errand u) :
    s.Framed errand u := by
  refine ⟨Nat.le_trans first.length_le second.length_le, fun n small other => ?_⟩
  rcases second.payload n (Nat.lt_of_lt_of_le small first.length_le) other with same | gone
  · rw [same]
    exact first.payload n small other
  · exact .inr gone

theorem Move.framed (move : s.Move errand ids t) : s.Framed errand t := by
  cases move with
  | aside kept length_eq counter_eq => exact .of_kept kept
  | make tag plain childless clean pristine => exact .of_kept (quiet_withNew s tag _).grown.kept
  | @bear kind tag p identity childless clean generates dated =>
    have grown := (quiet_withNew (s.draw kind) tag p).grown
    rw [heap_draw] at grown
    exact .of_kept grown.kept
  | @restore tag p kind id identity unlisted clean loads brought =>
    have grown := (quiet_withNew (s.observeId id) tag p).grown
    rw [heap_observeId] at grown
    exact .of_kept grown.kept
  | @change self p p' subject old identity relists clean dated wordless =>
    refine ⟨Nat.le_of_eq (Heap.length_replace s.heap self p').symm, fun n small other => ?_⟩
    cases alive : (s.withPayload self p').heap.payloadAt n with
    | none => exact .inr rfl
    | some q =>
      have placed := Heap.payloadAt_replace_of_alive (Heap.lt_length_of_payloadAt old)
        (Option.isSome_of_eq_some alive)
      have apart : self.number ≠ n := fun same => other (same ▸ subject)
      rw [if_neg apart] at placed
      exact .inl (alive.symm.trans placed)

theorem Moves.framed (moves : s.Moves errand ids t) : s.Framed errand t := by
  induction moves with
  | refl => exact .of_kept (Heap.Kept.refl s.heap)
  | step _ move ih => exact ih.trans move.framed

theorem Move.forest (move : s.Move errand ids t) (forest : s.heap.Forest) : t.heap.Forest := by
  cases move with
  | aside kept length_eq counter_eq => exact forest.kept kept length_eq
  | make tag plain childless clean pristine =>
    exact forest.create tag (childless ▸ Heap.unlisted_nil _)
  | bear kind tag identity childless clean generates dated =>
    rw [← heap_draw s kind] at forest
    exact forest.create tag (childless ▸ Heap.unlisted_nil _)
  | @restore tag p kind id identity unlisted clean loads brought =>
    rw [← heap_observeId s id] at forest unlisted
    exact forest.create tag unlisted
  | change subject old identity relists clean dated wordless => exact forest.replace old relists

theorem Moves.forest (moves : s.Moves errand ids t) (forest : s.heap.Forest) : t.heap.Forest := by
  induction moves with
  | refl => exact forest
  | step _ move ih => exact move.forest ih

theorem Move.clean (move : s.Move errand ids t) (good : errand.clean) (clean : s.heap.Clean) :
    t.heap.Clean := by
  cases move with
  | aside kept length_eq counter_eq => exact clean.kept kept length_eq
  | make tag plain childless new pristine => exact clean.create tag (new good)
  | bear kind tag identity childless new generates dated =>
    rw [← heap_draw s kind] at clean
    exact clean.create tag (new good)
  | @restore tag p kind id identity unlisted new loads brought =>
    rw [← heap_observeId s id] at clean
    exact clean.create tag (new good)
  | change subject old identity relists new dated wordless => exact clean.replace _ (new good)

theorem Moves.clean (moves : s.Moves errand ids t) (good : errand.clean) (clean : s.heap.Clean) :
    t.heap.Clean := by
  induction moves with
  | refl => exact clean
  | step _ move ih => exact move.clean good ih

/-- An object that is there after a move was there before, with the same id and with the due date
that it had or one that was checked, or it is new. A text that was there before is the same. -/
theorem Move.origin (move : s.Move errand ids t) {q : Payload}
    (alive : t.heap.payloadAt n = some q) :
    (∃ p, s.heap.payloadAt n = some p ∧ q.identity? = p.identity? ∧
      (q.due? = p.due? ∨ q.Dated) ∧ ∀ text, q = .text text → p = q) ∨
    s.heap.objects.length ≤ n ∧ (∀ identity, q.identity? = some identity → identity ∈ ids) ∧
      (q.Dated ∨ errand.loads ∧ ∀ due, q.due? = some due → errand.brings due) ∧ q.Pristine := by
  have created {s' : State} {tag : Tag} {p : Payload} (heap_eq : s'.heap = s.heap)
      (alive : (s'.withNew tag p).heap.payloadAt n = some q) :
      s.heap.payloadAt n = some q ∨ s.heap.objects.length ≤ n ∧ q = p := by
    unfold withNew at alive
    rw [Heap.payloadAt_create, heap_eq] at alive
    split at alive
    · next last => exact .inr ⟨Nat.le_of_eq last.symm, (Option.some.inj alive).symm⟩
    · exact .inl alive
  cases move with
  | aside kept length_eq counter_eq =>
    have small : n < s.heap.objects.length := length_eq ▸ Heap.lt_length_of_payloadAt alive
    rcases kept.payload n small with same | gone
    · exact .inl ⟨q, same.symm.trans alive, rfl, .inl rfl, fun _ _ => rfl⟩
    · cases gone.symm.trans alive
  | make tag plain childless clean pristine =>
    rcases created rfl alive with old | ⟨new, rfl⟩
    · exact .inl ⟨q, old, rfl, .inl rfl, fun _ _ => rfl⟩
    · refine .inr ⟨new, fun i h => ?_, .inl (Payload.dated_of_plain plain), pristine⟩
      cases plain.symm.trans h
  | bear kind tag identity childless clean generates dated =>
    rcases created (heap_draw s kind) alive with old | ⟨new, rfl⟩
    · exact .inl ⟨q, old, rfl, .inl rfl, fun _ _ => rfl⟩
    · refine .inr ⟨new, fun i h => ?_, .inl dated, Payload.pristine_of_identity identity⟩
      cases identity.symm.trans h
      exact List.mem_singleton.mpr rfl
  | @restore tag p kind id identity unlisted clean loads brought =>
    rcases created (heap_observeId s id) alive with old | ⟨new, rfl⟩
    · exact .inl ⟨q, old, rfl, .inl rfl, fun _ _ => rfl⟩
    · refine .inr ⟨new, fun i h => ?_, .inr ⟨loads, brought⟩,
        Payload.pristine_of_identity identity⟩
      cases identity.symm.trans h
      exact List.mem_singleton.mpr rfl
  | @change self p p' subject old identity_eq relists clean dated wordless =>
    have placed := Heap.payloadAt_replace_of_alive (Heap.lt_length_of_payloadAt old)
      (Option.isSome_of_eq_some alive)
    have same := alive.symm.trans placed
    split at same
    · next here =>
      cases same
      exact .inl ⟨p, here ▸ old, identity_eq, dated, fun text same => absurd same (wordless text)⟩
    · exact .inl ⟨q, same.symm, rfl, .inl rfl, fun _ _ => rfl⟩

/-! ### The ids of objects -/

def identityAt (s : State) (n : Nat) : Option (IdKind × String) :=
  (s.heap.payloadAt n).bind Payload.identity?

/-- An id belongs to an object that had it before, or it is new and so is the object. -/
theorem Move.identityAt (move : s.Move errand ids t) {identity : IdKind × String}
    (found : t.identityAt n = some identity) :
    s.identityAt n = some identity ∨ s.heap.objects.length ≤ n ∧ identity ∈ ids := by
  obtain ⟨q, alive, isIdentity⟩ := Option.bind_eq_some_iff.mp found
  rcases move.origin alive with ⟨p, old, same, _⟩ | ⟨new, member, _⟩
  · refine .inl ?_
    unfold State.identityAt
    rw [old, Option.bind_some, ← same]
    exact isIdentity
  · exact .inr ⟨new, member identity isIdentity⟩

theorem Moves.identityAt (moves : s.Moves errand ids t) {identity : IdKind × String}
    (found : t.identityAt n = some identity) :
    s.identityAt n = some identity ∨ s.heap.objects.length ≤ n ∧ identity ∈ ids := by
  induction moves with
  | refl => exact .inl found
  | step moves move ih =>
    rcases move.identityAt found with old | ⟨new, member⟩
    · rcases ih old with older | ⟨new, member⟩
      · exact .inl older
      · exact .inr ⟨new, List.mem_append_left _ member⟩
    · exact .inr ⟨Nat.le_trans moves.framed.length_le new, List.mem_append_right _ member⟩

/-! ### The due dates of tasks -/

def dueAt (s : State) (n : Nat) : Option String := (s.heap.payloadAt n).bind Payload.due?

/-- A due date is an old one, or it has been checked, or a file brought it with a new task. -/
theorem Move.dueAt (move : s.Move errand ids t) {due : String} (found : t.dueAt n = some due) :
    s.dueAt n = some due ∨ Task.IsDueDate due ∨
      s.heap.objects.length ≤ n ∧ errand.loads ∧ errand.brings due := by
  obtain ⟨q, alive, isDue⟩ := Option.bind_eq_some_iff.mp found
  rcases move.origin alive with
    ⟨p, old, _, same | dated, _⟩ | ⟨new, _, dated | ⟨loads, brought⟩, _⟩
  · refine .inl ?_
    unfold State.dueAt
    rw [old, Option.bind_some, ← same]
    exact isDue
  · exact .inr (.inl (dated due isDue))
  · exact .inr (.inl (dated due isDue))
  · exact .inr (.inr ⟨new, loads, brought due isDue⟩)

theorem Moves.dueAt (moves : s.Moves errand ids t) {due : String} (found : t.dueAt n = some due) :
    s.dueAt n = some due ∨ Task.IsDueDate due ∨
      s.heap.objects.length ≤ n ∧ errand.loads ∧ errand.brings due := by
  induction moves with
  | refl => exact .inl found
  | step moves move ih =>
    rcases move.dueAt found with old | valid | ⟨new, brought⟩
    · exact ih old
    · exact .inr (.inl valid)
    · exact .inr (.inr ⟨Nat.le_trans moves.framed.length_le new, brought⟩)

/-! ### The cursors of collections -/

/-- A collection that the request is not about is an old one, or it is new and on its first entry.
-/
theorem Move.collectionAt (move : s.Move errand ids t) (aside : errand.subject ≠ some n)
    {c : Collection} (found : t.heap.payloadAt n = some (.collection c)) :
    s.heap.payloadAt n = some (.collection c) ∨ s.heap.objects.length ≤ n ∧ c.cursor = 0 := by
  rcases move.origin found with ⟨p, old, _⟩ | ⟨new, _, _, unread⟩
  · rcases move.framed.payload n (Heap.lt_length_of_payloadAt old) aside with same | gone
    · exact .inl (same ▸ found)
    · cases gone.symm.trans found
  · exact .inr ⟨new, unread⟩

theorem Moves.collectionAt (moves : s.Moves errand ids t) (aside : errand.subject ≠ some n)
    {c : Collection} (found : t.heap.payloadAt n = some (.collection c)) :
    s.heap.payloadAt n = some (.collection c) ∨ s.heap.objects.length ≤ n ∧ c.cursor = 0 := by
  induction moves with
  | refl => exact .inl found
  | step moves move ih =>
    rcases move.collectionAt aside found with old | ⟨new, unread⟩
    · exact ih old
    · exact .inr ⟨Nat.le_trans moves.framed.length_le new, unread⟩

/-! ### Texts behind handles -/

/-- A text behind a handle is an old one, or it is clean. -/
theorem Move.textAt (move : s.Move errand ids t) {text : String}
    (found : t.heap.payloadAt n = some (.text text)) :
    s.heap.payloadAt n = some (.text text) ∨ Text.Clean text := by
  rcases move.origin found with ⟨p, old, _, _, same⟩ | ⟨_, _, _, pristine⟩
  · exact .inl (same text rfl ▸ old)
  · exact .inr pristine

theorem Moves.textAt (moves : s.Moves errand ids t) {text : String}
    (found : t.heap.payloadAt n = some (.text text)) :
    s.heap.payloadAt n = some (.text text) ∨ Text.Clean text := by
  induction moves with
  | refl => exact .inl found
  | step _ move ih => exact (move.textAt found).elim ih .inr

end State

end ObjectBoundary
