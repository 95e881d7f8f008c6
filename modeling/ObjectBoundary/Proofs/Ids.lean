import ObjectBoundary.Proofs.Entry.Effects
import ObjectBoundary.Proofs.FailedCreation
import ObjectBoundary.Proofs.Persistence

/-!
# Generated ids

The counter of a kind stands above the numbers of all ids of that kind that were given out or came
from a file, so that the next id is a new one. The greatest number is the exception: nothing is
above it. An id with that number leaves the counter on it, and the next object gets the same id.
-/

namespace ObjectBoundary

open Op State

/-! ### Numbers in ids -/

/-- The number in an id of a kind, as it is read from a file. -/
def IdKind.number? (kind : IdKind) (id : String) : Option Nat :=
  (Text.dropStart? kind.start.toList id.toList).bind Text.unsigned?

def IdCounter.top : Nat := UInt64.size - 1

namespace Text

theorem unsigned?_toDigits (n : Nat) : unsigned? (Nat.toDigits 10 n) = some n := by
  have unsigned : '+' ∉ Nat.toDigits 10 n := fun member => by
    have digit := Json.isDigit_toDigits n _ member
    revert digit
    decide
  unfold unsigned?
  split
  · next cs spelled => simp [spelled] at unsigned
  · exact Json.decimal?_toDigits n

theorem dropStart?_eq_some {start cs rest : List Char} (h : dropStart? start cs = some rest) :
    cs = start ++ rest := by
  unfold dropStart? at h
  split at h
  · next begins =>
    obtain ⟨behind, rfl⟩ := List.isPrefixOf_iff_prefix.mp begins
    cases h
    rw [List.drop_left]
  · cases h

theorem dropStart?_append (start cs : List Char) : dropStart? start (start ++ cs) = some cs := by
  have begins : start.isPrefixOf (start ++ cs) = true :=
    List.isPrefixOf_iff_prefix.mpr (List.prefix_append start cs)
  simp [dropStart?, begins]

end Text

namespace IdCounter

variable {counter : UInt64} {suffix : List Char} {n : Nat}

theorem le_observe (counter : UInt64) (suffix : List Char) : counter ≤ observe counter suffix := by
  unfold observe
  split
  · split
    · rw [UInt64.le_iff_toNat_le, UInt64.toNat_max]
      exact Nat.le_max_left _ _
    · exact UInt64.le_refl counter
  · exact UInt64.le_refl counter

/-- A counter rises above every number that it sees, as far as it can. -/
theorem lt_observe (read : Text.unsigned? suffix = some n) (small : n < UInt64.size) :
    n < (observe counter suffix).toNat ∨ n = top := by
  have size_pos : 0 < UInt64.size := by decide
  have fits : min (n + 1) (UInt64.size - 1) < UInt64.size := by omega
  simp only [observe, read, if_pos small, UInt64.toNat_max]
  rw [Nat.toUInt64, UInt64.toNat_ofNat_of_lt' fits]
  unfold top
  omega

/-- The greatest number keeps the counter on it. -/
theorem observe_top (counter : UInt64) : (observe counter (Nat.toDigits 10 top)).toNat = top := by
  have small : top < UInt64.size := by decide
  have last : min (top + 1) (UInt64.size - 1) = top := Nat.min_eq_right (Nat.le_succ top)
  have le_top : counter.toNat ≤ top := Nat.le_sub_one_of_lt counter.toNat_lt
  simp only [observe, Text.unsigned?_toDigits, if_pos small, last, UInt64.toNat_max]
  rw [Nat.toUInt64, UInt64.toNat_ofNat_of_lt' small]
  exact Nat.max_eq_right le_top

end IdCounter

/-- The id of a kind with the greatest number. -/
def IdKind.topId (kind : IdKind) : String := kind.start ++ Text.decimal IdCounter.top

namespace State

variable {errand : Errand} {s t u : State} {kind : IdKind} {id : String} {n : Nat}
  {ids : List (IdKind × String)} {known : List String}

theorem number?_nextId (s : State) (kind : IdKind) :
    kind.number? (s.nextId kind) = some (s.counter kind).toNat := by
  simp only [IdKind.number?, nextId, Text.decimal, String.toList_append, String.toList_ofList,
    Text.dropStart?_append, Option.bind_some, Text.unsigned?_toDigits]

theorem counter_le_observeId (s : State) (kind : IdKind) (id : String) :
    s.counter kind ≤ (s.observeId id).counter kind := by
  unfold observeId
  split
  · cases kind
    · exact IdCounter.le_observe _ _
    · exact UInt64.le_refl _
  · split
    · cases kind
      · exact UInt64.le_refl _
      · exact IdCounter.le_observe _ _
    · exact UInt64.le_refl _

/-- The counter of a kind rises above the number of an id of that kind. -/
theorem lt_counter_observeId (s : State) (read : kind.number? id = some n)
    (small : n < UInt64.size) :
    n < ((s.observeId id).counter kind).toNat ∨ n = IdCounter.top := by
  obtain ⟨suffix, begins, spelled⟩ := Option.bind_eq_some_iff.mp read
  unfold observeId
  cases kind with
  | task =>
    simp only [IdKind.start] at begins
    rw [begins]
    exact IdCounter.lt_observe spelled small
  | project =>
    simp only [IdKind.start] at begins
    -- No id begins in both ways.
    have other : Text.dropStart? "task-".toList id.toList = none := by
      cases found : Text.dropStart? "task-".toList id.toList with
      | none => rfl
      | some rest =>
        have both := (Text.dropStart?_eq_some found).symm.trans (Text.dropStart?_eq_some begins)
        simp at both
    rw [other, begins]
    exact IdCounter.lt_observe spelled small

/-- After the greatest id has been seen, it is the next one to be given out. -/
theorem nextId_observeId_topId (s : State) (kind : IdKind) :
    (s.observeId kind.topId).nextId kind = kind.topId := by
  have stuck : ((s.observeId kind.topId).counter kind).toNat = IdCounter.top := by
    have begins : Text.dropStart? kind.start.toList kind.topId.toList =
        some (Nat.toDigits 10 IdCounter.top) := by
      simp only [IdKind.topId, Text.decimal, String.toList_append, String.toList_ofList,
        Text.dropStart?_append]
    unfold observeId
    cases kind with
    | task =>
      rw [show "task-" = IdKind.task.start from rfl, begins]
      exact IdCounter.observe_top _
    | project =>
      have other : Text.dropStart? "task-".toList IdKind.project.topId.toList = none := by decide
      rw [other, show "proj-" = IdKind.project.start from rfl, begins]
      exact IdCounter.observe_top _
  rw [nextId, stuck, IdKind.topId]

/-! ### What moves do to the counters -/

@[simp] theorem counter_withNew (s : State) (tag : Tag) (p : Payload) (kind : IdKind) :
    (s.withNew tag p).counter kind = s.counter kind := by
  cases kind <;> rfl

@[simp] theorem counter_withPayload (s : State) (ref : Ref) (p : Payload) (kind : IdKind) :
    (s.withPayload ref p).counter kind = s.counter kind := by
  cases kind <;> rfl

theorem counter_draw_self (s : State) (kind : IdKind) :
    (s.draw kind).counter kind = s.counter kind + 1 := by
  cases kind <;> rfl

theorem counter_draw_other (s : State) {other : IdKind} (apart : other ≠ kind) :
    (s.draw other).counter kind = s.counter kind := by
  cases kind <;> cases other <;> first | rfl | exact absurd rfl apart

/-- Without a file there is at most one new id: the next one. -/
theorem Moves.draws (moves : s.Moves errand ids t) (generates : ¬ errand.loads)
    (few : ids.length ≤ 1) :
    ids = [] ∧ (∀ kind, t.counter kind = s.counter kind) ∨
      ∃ kind, ids = [(kind, s.nextId kind)] ∧
        ∀ other, t.counter other = (s.draw kind).counter other := by
  induction moves with
  | refl => exact .inl ⟨rfl, fun _ => rfl⟩
  | @step ids new t u moves move ih =>
    rw [List.length_append] at few
    have quiet (none : new = []) (same : ∀ kind, u.counter kind = t.counter kind) :
        ids ++ new = [] ∧ (∀ kind, u.counter kind = s.counter kind) ∨
          ∃ kind, ids ++ new = [(kind, s.nextId kind)] ∧
            ∀ other, u.counter other = (s.draw kind).counter other := by
      rw [none, List.append_nil]
      simp only [same]
      exact ih (by omega)
    cases move with
    | aside kept length_eq counter_eq => exact quiet rfl counter_eq
    | make tag plain childless clean pristine =>
      exact quiet rfl fun kind => counter_withNew t tag _ kind
    | change subject old identity relists clean =>
      exact quiet rfl fun kind => counter_withPayload t _ _ kind
    | restore tag identity unlisted clean loads => exact absurd loads generates
    | bear kind tag identity childless clean generates' =>
      have none : ids = [] := List.length_eq_zero_iff.mp (by simpa using few)
      rcases ih (by simp [none]) with ⟨_, same⟩ | ⟨_, some, _⟩
      · refine .inr ⟨kind, by rw [none, nextId, nextId, same kind]; rfl, fun other => ?_⟩
        rw [counter_withNew]
        by_cases apart : kind = other
        · subst apart
          rw [counter_draw_self, counter_draw_self, same]
        · rw [counter_draw_other t apart, counter_draw_other s apart, same]
      · cases none.symm.trans some

/-- A file raises the counters above the numbers of its ids, as far as it goes. -/
theorem Moves.observes (moves : s.Moves errand ids t) (loads : errand.loads) (kind : IdKind) :
    s.counter kind ≤ t.counter kind ∧ ∀ id n, (kind, id) ∈ ids → kind.number? id = some n →
      n < UInt64.size → n < (t.counter kind).toNat ∨ n = IdCounter.top := by
  induction moves with
  | refl => exact ⟨UInt64.le_refl _, by simp⟩
  | @step ids new t u moves move ih =>
    obtain ⟨rises, above⟩ := ih
    have later {t' : State} (le : t.counter kind ≤ t'.counter kind) :
        s.counter kind ≤ t'.counter kind ∧ ∀ id n, (kind, id) ∈ ids → kind.number? id = some n →
          n < UInt64.size → n < (t'.counter kind).toNat ∨ n = IdCounter.top := by
      refine ⟨UInt64.le_trans rises le, fun id n member read small => ?_⟩
      have le' := UInt64.le_iff_toNat_le.mp le
      exact (above id n member read small).imp_left fun below => Nat.lt_of_lt_of_le below le'
    cases move with
    | aside kept length_eq counter_eq =>
      rw [List.append_nil]
      exact later (counter_eq kind ▸ UInt64.le_refl _)
    | make tag plain childless clean pristine =>
      rw [List.append_nil]
      exact later (by rw [counter_withNew]; exact UInt64.le_refl _)
    | change subject old identity relists clean =>
      rw [List.append_nil]
      exact later (by rw [counter_withPayload]; exact UInt64.le_refl _)
    | bear kind tag identity childless clean generates => exact absurd loads generates
    | @restore tag p kind' id' identity unlisted clean loads' =>
      have le := counter_le_observeId t kind id'
      obtain ⟨rises', above'⟩ := later le
      rw [counter_withNew]
      refine ⟨rises', fun id n member read small => ?_⟩
      rcases List.mem_append.mp member with member | member
      · exact above' id n member read small
      · cases List.mem_singleton.mp member
        exact lt_counter_observeId t read small

/-! ### Runs -/

def idAt (s : State) (kind : IdKind) (n : Nat) : Option String :=
  (s.identityAt n).bind fun identity => if identity.1 = kind then some identity.2 else none

/-- The ids of the objects of a kind that a state has and that were not there before. -/
def given (s t : State) (kind : IdKind) : List String :=
  ((List.range t.heap.objects.length).drop s.heap.objects.length).filterMap (t.idAt kind)

/-- The ids of a kind that were given out or came from a file on the way to a state, as long as the
counter did not start again from zero. -/
inductive Knows (kind : IdKind) : State → List String → Prop where
  | start : Knows kind {} []
  | call {s : State} {known : List String} (knows : Knows kind s known) (thread : Nat) {call : Call}
      (exported : call.Exported)
      (rises : s.counter kind ≤ (s.perform thread call).2.counter kind) :
      Knows kind (s.perform thread call).2 (known ++ s.given (s.perform thread call).2 kind)
  | surroundings {s : State} {known : List String} (knows : Knows kind s known)
      (options : Options) (files : Files) (now : Int) :
      Knows kind { s with options, files, now } known

theorem Knows.next {call : Call} (knows : s.Knows kind known) (thread : Nat)
    (exported : call.Exported) (follows : t = (s.perform thread call).2)
    (rises : s.counter kind ≤ t.counter kind) {new : List String}
    (given_eq : s.given t kind = new) : t.Knows kind (known ++ new) := by
  subst follows given_eq
  exact knows.call thread exported rises

/-- All known ids are below the counter, but for the greatest one, and no object has another id. -/
structure Clear (kind : IdKind) (s : State) (known : List String) : Prop where
  below : ∀ id ∈ known, ∀ n, kind.number? id = some n → n < UInt64.size →
    n < (s.counter kind).toNat ∨ n = IdCounter.top
  live : ∀ n id, s.idAt kind n = some id → id ∈ known

theorem idAt_eq_some_iff : s.idAt kind n = some id ↔ s.identityAt n = some (kind, id) := by
  unfold idAt
  cases s.identityAt n with
  | none => simp
  | some identity =>
    obtain ⟨other, text⟩ := identity
    simp only [Option.bind_some, Option.some.injEq, Prod.mk.injEq]
    split
    · next same => simp [same]
    · next apart => simp [apart]

theorem lt_length_of_idAt (found : s.idAt kind n = some id) : n < s.heap.objects.length := by
  obtain ⟨p, hp, _⟩ := Option.bind_eq_some_iff.mp (idAt_eq_some_iff.mp found)
  exact Heap.lt_length_of_payloadAt hp

theorem mem_given_iff :
    id ∈ s.given t kind ↔ ∃ n, s.heap.objects.length ≤ n ∧ t.idAt kind n = some id := by
  unfold given
  rw [List.mem_filterMap]
  constructor
  · rintro ⟨n, member, found⟩
    obtain ⟨i, _, rfl⟩ := List.mem_drop_iff_getElem.mp member
    rw [List.getElem_range] at found
    exact ⟨s.heap.objects.length + i, Nat.le_add_right _ _, by simpa using found⟩
  · rintro ⟨n, new, found⟩
    have small := lt_length_of_idAt found
    refine ⟨n, List.mem_drop_iff_getElem.mpr ⟨n - s.heap.objects.length, ?_, ?_⟩, found⟩
    · rw [List.length_range]
      omega
    · rw [List.getElem_range]
      omega

/-- The new ids are among those that the moves bring. -/
theorem Moves.mem_of_given (moves : s.Moves errand ids t) (new : id ∈ s.given t kind) :
    (kind, id) ∈ ids := by
  obtain ⟨n, beyond, found⟩ := mem_given_iff.mp new
  rcases moves.identityAt (idAt_eq_some_iff.mp found) with old | ⟨_, member⟩
  · have small := lt_length_of_idAt (idAt_eq_some_iff.mpr old)
    omega
  · exact member

/-- An object has the id that it had, or a new one. -/
theorem Moves.live (moves : s.Moves errand ids t) (found : t.idAt kind n = some id) :
    s.idAt kind n = some id ∨ id ∈ s.given t kind := by
  rcases moves.identityAt (idAt_eq_some_iff.mp found) with old | ⟨new, _⟩
  · exact .inl (idAt_eq_some_iff.mpr old)
  · exact .inr (mem_given_iff.mpr ⟨n, new, found⟩)

variable {call : Call} {thread : Nat}

/-- A call that loads nothing gives out the next id or none. -/
theorem Alters.eq_nextId (alters : s.Alters errand 1 t) (generates : ¬ errand.loads)
    (new : id ∈ s.given t kind) :
    id = s.nextId kind ∧ t.counter kind = s.counter kind + 1 := by
  obtain ⟨ids, moves, few⟩ := alters
  have member := moves.mem_of_given new
  rcases moves.draws generates (few.resolve_left generates) with ⟨none, _⟩ | ⟨other, one, counters⟩
  · rw [none] at member
    cases member
  · rw [one] at member
    cases List.mem_singleton.mp member
    exact ⟨rfl, by rw [counters, counter_draw_self]⟩

/-- One call keeps all known ids below the counter. -/
theorem Clear.perform (clear : s.Clear kind known) (sound : s.Sound) (forest : s.heap.Forest)
    (thread : Nat) (call : Call)
    (rises : s.counter kind ≤ (s.perform thread call).2.counter kind) :
    (s.perform thread call).2.Clear kind (known ++ s.given (s.perform thread call).2 kind) := by
  have alters := perform_alters sound forest thread call
  have ⟨ids, moves, _⟩ := alters
  have rises' := UInt64.le_iff_toNat_le.mp rises
  refine ⟨fun id member n read small => ?_, fun n id found => ?_⟩
  · rcases List.mem_append.mp member with old | new
    · exact (clear.below id old n read small).imp_left fun below => by omega
    · by_cases loads : (s.errand call).loads
      · exact (moves.observes loads kind).2 id n (moves.mem_of_given new) read small
      · obtain ⟨rfl, counter_eq⟩ := alters.eq_nextId loads new
        rw [number?_nextId] at read
        cases read
        -- The counter has not started again from zero, so it is above the id.
        rw [counter_eq, UInt64.toNat_add] at rises' ⊢
        have bound := (s.counter kind).toNat_lt
        have one : (1 : UInt64).toNat = 1 := rfl
        left
        omega
  · rcases moves.live found with old | new
    · exact List.mem_append_left _ (clear.live n id old)
    · exact List.mem_append_right _ new

theorem Knows.clear (knows : s.Knows kind known) :
    s.Sound ∧ s.heap.Forest ∧ s.Clear kind known := by
  induction knows with
  | start =>
    refine ⟨sound_empty, Heap.forest_empty, by simp, fun n id found => ?_⟩
    have small := lt_length_of_idAt found
    cases small
  | call knows thread exported rises ih =>
    obtain ⟨sound, forest, clear⟩ := ih
    exact ⟨(advanced_perform sound thread exported).sound,
      (perform_alters sound forest thread _).forest forest,
      clear.perform sound forest thread _ rises⟩
  | surroundings knows options files now ih =>
    obtain ⟨sound, forest, clear⟩ := ih
    exact ⟨sound.of_eq rfl rfl rfl rfl rfl, forest, clear.below, clear.live⟩

/-- The next id is not among the known ones. -/
theorem Clear.nextId_not_mem (clear : s.Clear kind known)
    (room : ∀ id ∈ known, kind.number? id ≠ some IdCounter.top) : s.nextId kind ∉ known := by
  intro member
  have read := number?_nextId s kind
  rcases clear.below _ member _ read (s.counter kind).toNat_lt with below | top
  · omega
  · exact room _ member (by rw [read, top])

end State

/-! ### Creations -/

def IdKind.interface : IdKind → InterfaceId
  | .task => TaskModel.ids.task
  | .project => TaskModel.ids.project

def IdKind.role : IdKind → Role
  | .task => .task
  | .project => .project

def IdKind.maker : IdKind → Binding
  | .task =>
    ⟨"IProject_CreateTask", .project, "CreateTask", .call [.handle, .handle] (some .handle)⟩
  | .project =>
    ⟨"ITaskManager_CreateProject", .manager, "CreateProject", .call [.handle] (some .handle)⟩

/-- The calls that make an object of a kind and hand it out. -/
def Call.Creates (kind : IdKind) : Call → Prop
  | .createAs role => role = kind.role
  | .member b _ _ => b = kind.maker
  | _ => False

def Archive.ids (archive : Archive) : IdKind → List String
  | .task => archive.projects.flatMap fun p => p.tasks.map (·.id)
  | .project => archive.projects.map (·.id)

section Creations

variable {s t : State} {kind : IdKind} {h : Handle}

/-- A handle of a new object of an interface. -/
def State.Hands (s : State) (id : InterfaceId) (h : Handle) (t : State) : Prop :=
  ∃ ref, t.handles.bound? h = some ref ∧ s.heap.objects.length ≤ ref.number ∧
    ref.tag = .interface id

theorem Op.issue_hands {ref : Ref} {id : InterfaceId} (table : t.handles.WellFormed)
    (new : s.heap.objects.length ≤ ref.number) (tag_eq : ref.tag = .interface id) :
    (issue ref).Meets t (fun h u => s.Hands id h u) fun _ _ => True :=
  (issue_binds table ref).ok_imp fun _ _ ⟨bound, _⟩ => ⟨ref, bound, new, tag_eq⟩

theorem Op.createObject_hands (sound : s.Sound) (id : InterfaceId) :
    (createObject id).Meets s (fun h t => s.Hands id h t) fun _ _ => True := by
  have made : (construct id).Meets s (fun ref t => t.handles = s.handles ∧
      s.heap.objects.length ≤ ref.number ∧ ref.tag = .interface id) fun _ _ => True := by
    refine meets_get ?_
    split
    · exact meets_invalid trivial
    · next factory found =>
      have native : TaskModel.factories.lookup id = some factory := by
        rcases sound.model with registered | ⟨unregistered, _⟩
        · rwa [registered.factories_eq] at found
        · rw [unregistered.factories_eq] at found
          cases found
      refine (manufacture_meets sound native).bind fun p t ⟨_, quiet, _, _⟩ => ?_
      exact meets_of_run (run_create t _ p) ⟨quiet.handles_eq, quiet.grown.length_le, rfl⟩
  refine made.bind fun ref t ⟨handles_eq, new, tag_eq⟩ => ?_
  exact issue_hands (handles_eq ▸ sound.table) new tag_eq

theorem Op.invoke_hands (sound : s.Sound) (h : Handle) (ws : List Wire) (kind : IdKind) :
    (invoke h (kind.maker.role.id TaskModel.ids) kind.maker.member ws).Meets s
      (fun w t => s.Hands kind.interface w.handleBits t) fun _ _ => True := by
  have never : ∀ e : Failure, e.toFault.namesObject = false → True := fun _ _ => trivial
  refine (target_finds h _).bind_meets never fun (self, d) ⟨hb, htag, hd⟩ => ?_
  have holds := sound.holds_bound hb
  obtain ⟨payload, hp⟩ := holds.payload
  have fits := sound.heap.fits_of_holds holds.has hp
  have makes : payload.Makes kind.maker.member kind.interface := by
    obtain ⟨registry_eq, implements⟩ := sound.implements holds.has hp htag hd
    rw [registry_eq] at hd
    cases kind <;> cases hd <;> cases implements
    · exact .project _
    · exact .manager _
  refine (declaredMethod_finds d _).bind_meets never fun m hm => ?_
  obtain ⟨returns_eq, _⟩ := makes.declared (htag ▸ fits) (sound.descriptor holds.has htag hd) hm
  simp only
  split
  · exact meets_fail_bind trivial
  · refine (inboundArguments_finds sound ws m.parameters).bind_meets never fun arguments _ => ?_
    have called : (callMethod self kind.maker.member arguments).Meets s
        (fun value t => ∃ ref, value = .object ref ∧
          s.Enlists self payload.listing (.interface kind.interface) ref t)
        fun e _ => e.toFault.code = .handleLimit → True :=
      callMethod_creates sound hb hp makes arguments
    refine (called.imp (fun _ _ h => h) fun _ _ _ => trivial).bind
      fun value t ⟨ref, value_eq, enlists⟩ => ?_
    rw [value_eq, returns_eq]
    simp only [outbound, enlists.tag_eq, ne_eq, not_true_eq_false, if_false]
    refine (issue_hands enlists.advanced.sound.table (Nat.le_of_eq enlists.new.symm)
      enlists.tag_eq).bind fun h u hands => ?_
    exact meets_pure hands

theorem Call.body_hands (sound : s.Sound) {call : Call} (creates : call.Creates kind) :
    call.body.Meets s (fun a t => ∃ h, a.reply = .handle h ∧ s.Hands kind.interface h t)
      fun _ _ => True := by
  -- Registering the task model first leaves handles and objects alone.
  have ready : ∀ {β : Type} {next : TaskIds → Op β} {ok : β → State → Prop},
      (∀ t : State, t.Sound → t.heap = s.heap →
        (next TaskModel.ids).Meets t ok fun _ _ => True) →
      (taskIds >>= next).Meets s ok fun _ _ => True := by
    intro β next ok each
    rcases sound.model with registered | ⟨unregistered, _⟩
    · exact meets_run registered.run_taskIds (each s sound rfl)
    · exact meets_run unregistered.run_taskIds (each s.withModel sound.withModel rfl)
  cases call with
  | createAs role =>
    cases creates
    have made : (do createObject (kind.role.id (← taskIds)) : Op Handle).Meets s
        (fun h t => s.Hands kind.interface h t) fun _ _ => True := by
      refine ready fun t sound heap_eq => ?_
      have interface_eq : kind.role.id TaskModel.ids = kind.interface := by cases kind <;> rfl
      rw [interface_eq]
      refine (createObject_hands sound kind.interface).ok_imp fun h u hands => ?_
      unfold State.Hands at hands ⊢
      rwa [heap_eq] at hands
    exact made.bind fun h t hands => meets_pure ⟨h, rfl, hands⟩
  | member b h ws =>
    cases creates
    have ran : (kind.maker.run h ws).Meets s
        (fun found t => ∃ w, found = some w ∧ s.Hands kind.interface w.handleBits t)
        fun _ _ => True := by
      refine ready fun t sound heap_eq => ?_
      have called := invoke_hands sound h ws kind
      unfold State.Hands at called
      rw [heap_eq] at called
      have expected : ∀ (w : Wire) (u : State), s.Hands kind.interface w.handleBits u →
          (expectKind .handle w >>= fun w => pure (some w)).Meets u
            (fun found u => ∃ w, found = some w ∧ s.Hands kind.interface w.handleBits u)
            fun _ _ => True := by
        intro w u hands
        unfold expectKind
        split
        · exact meets_pure ⟨w, rfl, hands⟩
        · exact meets_fail_bind trivial
      cases kind <;> exact called.bind expected
    refine ran.bind fun found t ⟨w, found_eq, hands⟩ => ?_
    subst found_eq
    cases kind <;> exact meets_pure ⟨_, rfl, hands⟩
  | _ => exact creates.elim

theorem Payload.identity?_of_fits {p : Payload} (fits : p.Fits (.interface kind.interface)) :
    ∃ id, p.identity? = some (kind, id) := by
  cases p with
  | text | scripted => cases fits
  | collection c =>
    obtain ⟨content, list⟩ := c
    cases content <;> cases fits.1
  | task task => cases kind <;> first | exact ⟨task.id, rfl⟩ | cases fits
  | project project => cases kind <;> first | exact ⟨project.id, rfl⟩ | cases fits.1
  | manager => cases kind <;> cases fits.1

theorem Call.Creates.perform_eq {call : Call} (creates : call.Creates kind) (s : State)
    (thread : Nat) : s.perform thread call = s.guarded thread ⟨.handle .null, []⟩ call.body := by
  cases call with
  | createAs role => rfl
  | member b h ws =>
    cases creates
    cases kind <;> rfl
  | _ => exact creates.elim

/-- The object that a creation hands out is of its kind and is new. -/
theorem State.Hands.idAt (hands : s.Hands kind.interface h t) (sound : t.Sound) :
    ∃ ref id, t.handles.bound? h = some ref ∧ t.idAt kind ref.number = some id ∧
      id ∈ s.given t kind := by
  obtain ⟨ref, hb, new, tag_eq⟩ := hands
  have holds := sound.holds_bound hb
  obtain ⟨p, hp⟩ := holds.payload
  have fits := sound.heap.fits_of_holds holds.has hp
  rw [tag_eq] at fits
  obtain ⟨id, identity⟩ := Payload.identity?_of_fits fits
  have found : t.idAt kind ref.number = some id := by
    rw [idAt_eq_some_iff, identityAt, hp]
    exact identity
  exact ⟨ref, id, hb, found, mem_given_iff.mpr ⟨ref.number, new, found⟩⟩

/-- All ids of a loaded file are those of new objects. -/
theorem State.Restocks.ids_given {self : Ref} {archive : Archive}
    (restocks : s.Restocks self archive t) (sound : s.Sound) (sound' : t.Sound)
    (hb : s.handles.bound? h = some self) (kind : IdKind) :
    ∀ id ∈ archive.ids kind, id ∈ s.given t kind := by
  obtain ⟨m, _, rfl, lists⟩ := restocks.content sound sound' hb
  have found {ref : Ref} {p : Payload} {id : String} (new : s.heap.objects.length ≤ ref.number)
      (hp : t.heap.payloadAt ref.number = some p) (identity : p.identity? = some (kind, id)) :
      id ∈ s.given t kind := by
    refine mem_given_iff.mpr ⟨ref.number, new, idAt_eq_some_iff.mpr ?_⟩
    rw [identityAt, hp]
    exact identity
  have listed {saved : Project Task} (member : saved ∈ (t.heap.archive m).projects) :
      ∃ (ref : Ref) (project : Project Ref), s.heap.objects.length ≤ ref.number ∧
        t.heap.payloadAt ref.number = some (.project project) ∧
        (∀ r ∈ project.tasks, s.heap.objects.length ≤ r.number) ∧
        t.heap.archiveProject project = saved := by
    obtain ⟨⟨ref, project⟩, among, rfl⟩ := List.mem_map.mp member
    obtain ⟨hr, hp⟩ := Heap.mem_of_mem_projectsOf among
    obtain ⟨new, project', hp', tasks⟩ := lists ref hr
    cases (Heap.project?_eq_some_iff.mp hp').symm.trans hp
    exact ⟨ref, project, new, hp, fun r hr => (tasks r hr).1, rfl⟩
  intro id member
  cases kind with
  | task =>
    obtain ⟨saved, among, member⟩ := List.mem_flatMap.mp member
    obtain ⟨ref, project, _, _, tasks_new, rfl⟩ := listed among
    obtain ⟨task, shown, rfl⟩ := List.mem_map.mp member
    obtain ⟨⟨r, task⟩, held, rfl⟩ := List.mem_map.mp shown
    exact found (tasks_new r (Heap.mem_of_mem_tasksOf held))
      (Heap.payloadAt_of_mem_tasksOf held) rfl
  | project =>
    obtain ⟨saved, among, rfl⟩ := List.mem_map.mp member
    obtain ⟨ref, project, new, hp, _, rfl⟩ := listed among
    exact found new hp rfl

end Creations

namespace State

variable {s : State} {kind : IdKind} {known : List String}

/-- An id that a creation gives out is a new one, as long as no known id has the greatest number. It
is the id of the object that the caller gets, and all ids of a loaded file are known from then on.
The greatest id is given out again after it has been seen. -/
theorem generated_ids_new (knows : s.Knows kind known) :
    (∀ (thread : Nat) (call : Call), call.isLoad = false →
      (∀ id ∈ known, kind.number? id ≠ some IdCounter.top) →
      ∀ id ∈ s.given (s.perform thread call).2 kind,
        id = s.nextId kind ∧ id ∉ known ∧ ∀ n, s.idAt kind n ≠ some id) ∧
    (∀ (thread : Nat) (call : Call) (h : Handle), call.Exported → call.Creates kind →
      (s.perform thread call).1.reply = .handle h → h ≠ .null →
      ∃ ref id, (s.perform thread call).2.handles.bound? h = some ref ∧
        (s.perform thread call).2.idAt kind ref.number = some id ∧
        id ∈ s.given (s.perform thread call).2 kind) ∧
    (∀ (thread : Nat) (h k : Handle) (self : Ref) (m : Manager Ref) (path text : String)
      (archive : Archive) (call : Call), s.Manages h self m → s.Spells k path →
      call.Asks .load h k → s.files.read path = .ok text →
      Manager.parse path text = .ok archive →
      (s.perform thread call).1.reply = .bool true ∧
        ∀ id ∈ archive.ids kind, id ∈ s.given (s.perform thread call).2 kind) ∧
    (s.observeId kind.topId).nextId kind = kind.topId := by
  obtain ⟨sound, forest, clear⟩ := knows.clear
  refine ⟨fun thread call generates room id new => ?_,
    fun thread call h exported creates reply live => ?_,
    fun thread h k self m path text archive call manages spells asks read parsed => ?_,
    nextId_observeId_topId s kind⟩
  · have alters := perform_alters sound forest thread call
    obtain ⟨rfl, _⟩ := alters.eq_nextId (by simp [State.errand, generates]) new
    have fresh := clear.nextId_not_mem room
    exact ⟨rfl, fresh, fun n found => fresh (clear.live n _ found)⟩
  · have sound' := (advanced_perform sound thread exported).sound
    have guarded := creates.perform_eq s thread
    rw [guarded] at reply sound' ⊢
    rcases guarded_cases s thread ⟨.handle .null, []⟩ call.body with
      ⟨a, t, hr, hg⟩ | ⟨e, t, hr, hg⟩
    · rw [hg] at reply sound' ⊢
      obtain ⟨h', reply', hands⟩ := (Call.body_hands sound.countCall creates).ok_of_run hr
      cases reply'.symm.trans reply
      exact Hands.idAt hands sound'
    · rw [hg] at reply
      cases reply
      exact absurd rfl live
  · have sound' := (advanced_perform sound thread asks.exported).sound
    obtain ⟨succeeds, _, restocks⟩ :=
      perform_load_of_parse sound manages spells asks thread read parsed
    exact ⟨succeeds, restocks.ids_given sound sound' manages.1 kind⟩

/-- The second task gets an id of its own; when a file is loaded instead, its ids become known. -/
theorem second_task_id_new :
    let archive : Archive :=
      { projects := [{ id := "p", name := "", tasks := [
          { id := "task-41", title := "", createdAt := "" }] }] }
    let manager : Handle := ⟨0x100000001⟩
    let path : Handle := ⟨0x100000002⟩
    let second : Handle := ⟨0x100000004⟩
    let managed := (({} : State).perform 0 (.createAs .manager)).2
    let spelled := (managed.perform 0 (.createText (.text "t"))).2
    let before := (spelled.perform 0 (.createAs .task)).2
    let s : State :=
      { before with files := { nodes := [(["t"], .file (some (Manager.print archive)))] } }
    let made := s.perform 1 (.createAs .task)
    let loaded := s.perform 1 (.member FileMethod.load.binding manager [.handle path])
    s.Knows .task ["task-1"] ∧ made.1.reply = .handle second ∧
      (∃ ref, made.2.handles.bound? second = some ref ∧
        made.2.idAt .task ref.number = some "task-2" ∧ "task-2" ∉ ["task-1"]) ∧
      loaded.1.reply = .bool true ∧ "task-41" ∈ s.given loaded.2 .task := by
  intro archive manager path second managed spelled before s made loaded
  have facts : ({} : State).counter .task ≤ managed.counter .task ∧
      managed.counter .task ≤ spelled.counter .task ∧
      spelled.counter .task ≤ before.counter .task ∧ ({} : State).given managed .task = [] ∧
      managed.given spelled .task = [] ∧ spelled.given before .task = ["task-1"] ∧
      made.1.reply = .handle second ∧ s.nextId .task = "task-2" ∧
      s.handles.bound? manager = some ⟨0, .interface TaskModel.ids.manager⟩ ∧
      s.heap.manager? ⟨0, .interface TaskModel.ids.manager⟩ = some {} ∧
      s.handles.bound? path = some ⟨1, .string⟩ ∧ s.text? ⟨1, .string⟩ = some "t" := by
    decide +kernel
  obtain ⟨first, next, last, none, still, one, reply, follows, hm, empty, hp, spells⟩ := facts
  have createManager : (Call.createAs .manager).Exported := .of_symbol "ITaskManager_Create" [] rfl
  have createTask : (Call.createAs .task).Exported := .of_symbol "ITask_Create" [] rfl
  have createPath : (Call.createText (.text "t")).Exported :=
    .of_symbol "idlbridge_string_create" [.text _] rfl
  have managed_eq : managed = (({} : State).perform 0 (.createAs .manager)).2 := rfl
  have spelled_eq : spelled = (managed.perform 0 (.createText (.text "t"))).2 := rfl
  have before_eq : before = (spelled.perform 0 (.createAs .task)).2 := rfl
  have read : s.files.read "t" = .ok (Manager.print archive) := by
    have checked : Files.checkPath "t" = .ok () := by
      have plain : "t".contains '\x00' = false := by simp
      rw [Files.checkPath, plain]
      rfl
    rw [Files.read, checked]
    rfl
  clear_value before spelled managed
  have known := ((Knows.start.next 0 createManager managed_eq first none).next 0 createPath
    spelled_eq next still).next 0 createTask before_eq last one
  have knows : s.Knows .task ["task-1"] := .surroundings known before.options s.files before.now
  obtain ⟨fresh, handed, reads, _⟩ := generated_ids_new knows
  obtain ⟨ref, id, bound, found, new⟩ := handed 1 _ second createTask rfl reply (by decide)
  obtain ⟨rfl, unknown, _⟩ := fresh 1 _ rfl (by decide) id new
  rw [follows] at found unknown
  obtain ⟨succeeds, loads⟩ := reads 1 manager path _ _ "t" _ archive _ ⟨hm, empty⟩
    ⟨_, hp, text?_eq_some_iff.mp spells⟩ .typed read (Manager.parse_print "t" archive)
  exact ⟨knows, reply, ⟨ref, bound, found, unknown⟩, succeeds, loads "task-41" (by decide)⟩

end State

end ObjectBoundary
