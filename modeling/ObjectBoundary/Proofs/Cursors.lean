import ObjectBoundary.Proofs.Collections
import ObjectBoundary.Proofs.Outcomes
import ObjectBoundary.Proofs.Readable

/-!
# Enumerations

Along every run the cursor of a collection is the number of entries that calls have handed out since
the collection was made or reset last, whatever was called in between. So every entry is visited
once, the end is told when all entries have been visited, and a call that fails is as good as not
made.
-/

namespace ObjectBoundary

open Op State

variable {α : Type} {s t : State} {h : Handle} {ref : Ref} {c c' : Collection} {entry : Entry}
  {n : Nat}

/-! ### How asking for the next entry ends -/

def State.asks (s : State) (kind : CollectionKind) (h : Handle) (thread : Nat) : Event :=
  ⟨s, thread, kind.next h⟩

@[simp] theorem State.before_asks (s : State) (kind : CollectionKind) (h : Handle) (thread : Nat) :
    (s.asks kind h thread).before = s := rfl

/-- The three ways in which the next entry is asked for: there is none left, it is handed out, or
there is a text with a NUL in it or no handle left for it. -/
inductive Event.NextEnds (e : Event) (h : Handle) (ref : Ref) (c : Collection) : Prop where
  | exhausted (ended : c.current? = none) (answer_eq : e.answer = ⟨.bool false, []⟩)
      (cleared : e.lastError.code = .none) (spends : e.before.Spends 0 e.after)
      (behind : e.after.Behind h ref c)
  | told (entry : Entry) (ws : List Wire) (current : c.current? = some entry)
      (passable : entry.Passable c.kind) (granted : e.before.Grants (entry.width c.kind))
      (answer_eq : e.answer = ⟨.bool true, ws⟩) (cleared : e.lastError.code = .none)
      (shows : List.Forall₂ (e.after.Shows e.before.heap.objects.length) (entry.parts c.kind) ws)
      (spends : e.before.Spends (entry.width c.kind) e.after)
      (behind : e.after.Behind h ref c.advance)
  | refused (entry : Entry) (current : c.current? = some entry)
      (denied : ¬ (entry.Passable c.kind ∧ e.before.Grants (entry.width c.kind)))
      (answer_eq : e.answer = ⟨.bool false, []⟩) (recorded : e.lastError.code ≠ .none)
      (untouched : e.before.Untouched e.thread e.after)
      (room_le : e.after.handles.room ≤ e.before.handles.room) (behind : e.after.Behind h ref c)

theorem Event.cleared_of_after {e : Event} {t : State}
    (after : e.after = t.setLastError e.thread {}) : e.lastError.code = .none := by
  rw [Event.lastError, after, lastErrors_setLastError_self]

theorem Event.recorded_of_after {e : Event} {t : State} {failure : Failure}
    (after : e.after = t.recordFailure e.thread failure) : e.lastError.code ≠ .none := by
  rw [Event.lastError_of_failure after]
  exact failure.toFault.code_ne_none

theorem State.Behind.countCall (behind : s.Behind h ref c) : s.countCall.Behind h ref c :=
  ⟨behind.sound.countCall, behind.typed, behind.bound, behind.payload⟩

/-- What is left of the handle and the collection after a call. -/
theorem State.Behind.perform {thread : Nat} {call : Call} (behind : s.Behind h ref c)
    (exported : call.Exported)
    (bound : (s.perform thread call).2.handles.bound? h = some ref)
    (payload : (s.perform thread call).2.heap.payloadAt ref.number = some (.collection c')) :
    (s.perform thread call).2.Behind h ref c' :=
  ⟨(advanced_perform behind.sound thread exported).sound,
    wellTyped_perform behind.sound behind.typed thread exported, bound, payload⟩

theorem State.Untouched.payloadAt_eq {thread : Nat} (untouched : s.Untouched thread t)
    (small : n < s.heap.objects.length) : t.heap.payloadAt n = s.heap.payloadAt n := by
  simp only [Heap.payloadAt, untouched.object_eq n small]

theorem CollectionKind.isGuarded_next (kind : CollectionKind) (h : Handle) :
    (kind.next h).isGuarded := by
  cases kind <;> rfl

theorem CollectionKind.sentinel_next (kind : CollectionKind) (h : Handle) :
    (kind.next h).sentinel = .bool false := by
  cases kind <;> rfl

theorem Op.nextMember_exhausted (behind : s.Behind h ref c) (kind_eq : c.kind = .set)
    (ended : c.current? = none) :
    (nextMember h).Meets s (fun found t => found = none ∧ t = s) fun _ _ => False := by
  refine meets_run (run_collection behind.sound behind.bound behind.payload kind_eq) ?_
  simp only [ended]
  exact meets_pure ⟨rfl, rfl⟩

theorem Op.nextEntry_exhausted (behind : s.Behind h ref c) (kind_eq : c.kind = .dict)
    (ended : c.current? = none) :
    (nextEntry h).Meets s (fun found t => found = none ∧ t = s) fun _ _ => False := by
  refine meets_run (run_collection behind.sound behind.bound behind.payload kind_eq) ?_
  simp only [ended]
  exact meets_pure ⟨rfl, rfl⟩

/-- Once there is no entry under the cursor, nothing is handed out. -/
theorem Call.next_exhausted (behind : s.Behind h ref c) (stepped : c.kind ≠ .array)
    (ended : c.current? = none) :
    (c.kind.next h).body.Meets s (fun a t => a = ⟨.bool false, []⟩ ∧ t = s) fun _ _ => False := by
  cases kind_eq : c.kind with
  | array => exact absurd kind_eq stepped
  | set =>
    refine meets_run (run_pure s ()) ((nextMember_exhausted behind kind_eq ended).bind ?_)
    rintro _ _ ⟨rfl, rfl⟩
    exact meets_pure ⟨rfl, rfl⟩
  | dict =>
    refine meets_run (run_pure s ()) ((nextEntry_exhausted behind kind_eq ended).bind ?_)
    rintro _ _ ⟨rfl, rfl⟩
    exact meets_pure ⟨rfl, rfl⟩

/-- Asking for the next entry ends in one of three ways. -/
theorem State.Behind.next_ends (behind : s.Behind h ref c) (stepped : c.kind ≠ .array)
    (thread : Nat) : (s.asks c.kind h thread).NextEnds h ref c := by
  let e : Event := s.asks c.kind h thread
  have exported := c.kind.exported_next h
  have lt_length := (behind.sound.has behind.bound).lt_length
  have ends := e.ends (c.kind.isGuarded_next h)
  cases current : c.current? with
  | none =>
    have decides := Call.next_exhausted behind.countCall stepped current
    rcases ends with ⟨a, t, hr, _, answer, after⟩ | ⟨failure, t, hr, _, _, _⟩
    · obtain ⟨rfl, rfl⟩ := decides.ok_of_run hr
      have same : e.after.handles = s.handles ∧ e.after.heap = s.heap ∧
          e.after.options = s.options := by
        rw [after]
        exact ⟨rfl, rfl, rfl⟩
      refine .exhausted current answer (Event.cleared_of_after after)
        ⟨by rw [same.1]; rfl, by rw [same.1]; rfl, same.2.2⟩
        (behind.perform exported ?_ ?_)
      · exact same.1 ▸ behind.bound
      · exact same.2.1 ▸ behind.payload
    · exact (decides.bad_of_run hr).elim
  | some entry =>
    have decides := Call.next_exact behind.countCall stepped current
    rcases ends with ⟨a, t, hr, _, answer, after⟩ | ⟨failure, t, hr, _, answer, after⟩
    · obtain ⟨⟨passable, granted⟩, ws, rfl, moved⟩ := decides.ok_of_run hr
      have shows : List.Forall₂ (e.after.Shows s.heap.objects.length) (entry.parts c.kind) ws := by
        rw [after]
        exact moved.shows
      refine .told entry ws current passable granted answer (Event.cleared_of_after after) shows
        ?_ (behind.perform exported ?_ ?_)
      · rw [after]
        exact ⟨moved.spends.room_eq, moved.spends.live_eq, moved.spends.options_eq⟩
      · change e.after.handles.bound? h = some ref
        rw [after]
        exact moved.bound
      · change e.after.heap.payloadAt ref.number = _
        rw [after]
        exact moved.payload
    · obtain ⟨denied, refused, room⟩ := decides.bad_of_run hr
      have untouched : s.Untouched thread e.after := by
        rw [after]
        exact refused.untouched behind.sound
      have silent : e.call.sentinel = .bool false := c.kind.sentinel_next h
      rw [silent] at answer
      refine .refused entry current denied answer (Event.recorded_of_after after) untouched ?_
        (behind.perform exported ?_ ?_)
      · rw [after]
        exact room
      · exact (untouched.bound_eq h).trans behind.bound
      · exact (untouched.payloadAt_eq lt_length).trans behind.payload

/-! ### What one call does to a cursor -/

namespace Call

def isNext : Call → Bool
  | .nextEntry _ _ _ | .nextMember _ _ => true
  | _ => false

def isReset : Call → Bool
  | .reset _ _ => true
  | _ => false

end Call

namespace Collection

/-- What a call with an answer may make of a collection. -/
structure Turned (c : Collection) (call : Call) (reply : Reply) (c' : Collection) : Prop where
  cursor_eq : c'.cursor =
    if call.isReset then 0 else if call.isNext ∧ reply = .bool true then c.cursor + 1 else c.cursor
  within : c.cursor ≤ c.count → c'.cursor ≤ c'.count

/-- Adding leaves the cursor where it is. -/
theorem turned_of_added {call : Call} {reply : Reply} (added : call.isReset = false)
    (silent : call.isNext = false) (cursor_eq : c'.cursor = c.cursor)
    (count_le : c.count ≤ c'.count) : c.Turned call reply c' := by
  refine ⟨?_, fun within => ?_⟩
  · simp [added, silent, cursor_eq]
  · rw [cursor_eq]
    exact within.trans count_le

theorem push_grows {value : Value} (pushed : c.push value = .ok c') :
    c'.cursor = c.cursor ∧ c.count ≤ c'.count := by
  obtain ⟨_, _, made⟩ := bind_eq_ok_iff.mp pushed
  cases made
  exact ⟨rfl, by simp [count]⟩

theorem insert_grows {value : Value} {isNew : Bool} (inserted : c.insert value = .ok (isNew, c')) :
    c'.cursor = c.cursor ∧ c.count ≤ c'.count := by
  obtain ⟨_, _, made⟩ := bind_eq_ok_iff.mp inserted
  cases made
  exact ⟨rfl, length_le_addMember c.entries value⟩

theorem insertEntry_grows {key value : Value} {isNew : Bool}
    (inserted : c.insertEntry key value = .ok (isNew, c')) :
    c'.cursor = c.cursor ∧ c.count ≤ c'.count := by
  obtain ⟨_, _, made⟩ := bind_eq_ok_iff.mp inserted
  cases made
  exact ⟨rfl, length_le_putEntry key value c.entries⟩

end Collection

namespace Op

/-- Behind the handle is that collection, and it is found as one of its kind only. -/
theorem collection_behind (behind : s.Behind h ref c) (kind : CollectionKind) :
    (collection h kind).Finds s fun found => found = (ref, c) ∧ c.kind = kind := by
  have fits := behind.sound.heap.fits_of_holds (behind.sound.has behind.bound) behind.payload
  refine (resolve_finds h _).bind fun found ⟨bound, tag_eq⟩ => ?_
  obtain rfl : ref = found := Option.some.inj (behind.bound.symm.trans bound)
  have same : c.kind.tag = kind.tag := fits.1.symm.trans (tag_eq _ rfl)
  have kind_eq : c.kind = kind := by
    cases c_kind : c.kind <;> cases kind <;> rw [c_kind] at same <;> first | rfl | cases same
  refine (payload_finds (behind.sound.holds_bound bound)).bind fun p held => ?_
  cases behind.payload.symm.trans held
  exact finds_pure ⟨rfl, kind_eq⟩

/-- The collection behind a handle takes another one's place. -/
theorem replace_puts {bad : Failure → State → Prop} {added : List Ref} (behind : s.Behind h ref c)
    (carries : s.heap.Carries added) (adds : c.Adds added c') :
    (replace ref (.collection c')).Meets s
      (fun _ t => t.heap.payloadAt ref.number = some (.collection c')) bad := by
  have replaced : (replace ref (.collection c')).Meets s (fun _ t => s.Advanced t) bad :=
    replace_collection_meets behind.sound (behind.sound.holds_bound behind.bound) behind.payload
      carries adds
  have sound := (replaced.ok_of_run (run_replace s ref _)).sound
  exact meets_of_run (run_replace s ref _)
    (withPayload_kept behind.bound (behind.sound.has behind.bound) sound).1

/-- A collection that has been added to is behind the handle. -/
def Grows (op : Op α) (s : State) (ref : Ref) (c : Collection) : Prop :=
  op.Meets s (fun _ t => ∃ c', t.heap.payloadAt ref.number = some (.collection c') ∧
    c'.cursor = c.cursor ∧ c.count ≤ c'.count) s.Refused

theorem pushItem_grows (behind : s.Behind h ref c) (item : Wire) :
    (pushItem h item).Grows s ref c := by
  have sound := behind.sound
  refine (collection_behind behind .array).bind_refused sound fun found ⟨same, _⟩ => ?_
  subst same
  refine (inboundUntyped_finds sound item).bind_refused sound fun value carries => ?_
  have yields := c.push_yields value
  refine (finds_of_yields yields).bind_refused sound fun c' pushed => ?_
  rw [pushed] at yields
  exact (replace_puts behind carries yields).ok_imp fun _ t held =>
    ⟨c', held, Collection.push_grows pushed⟩

theorem insertMember_grows (behind : s.Behind h ref c) (item : Wire) :
    (Op.insertMember h item).Grows s ref c := by
  have sound := behind.sound
  refine (collection_behind behind .set).bind_refused sound fun found ⟨same, _⟩ => ?_
  subst same
  refine (inboundUntyped_finds sound item).bind_refused sound fun value carries => ?_
  have yields := c.insert_yields value
  refine (finds_of_yields yields).bind_refused sound fun (isNew, c') inserted => ?_
  rw [inserted] at yields
  exact (replace_puts behind carries yields).bind fun _ t held =>
    meets_pure ⟨c', held, Collection.insert_grows inserted⟩

theorem insertEntry_grows (behind : s.Behind h ref c) (key item : Wire) :
    (Op.insertEntry h key item).Grows s ref c := by
  have sound := behind.sound
  refine (collection_behind behind .dict).bind_refused sound fun found ⟨same, _⟩ => ?_
  subst same
  refine (inboundKey_finds sound key).bind_refused sound fun k keyCarries => ?_
  refine (inboundUntyped_finds sound item).bind_refused sound fun value carries => ?_
  have yields := c.insertEntry_yields k value
  refine (finds_of_yields yields).bind_refused sound fun (isNew, c') inserted => ?_
  rw [inserted] at yields
  refine (replace_puts behind (fun r hr => ?_) yields).ok_imp fun _ t held =>
    ⟨c', held, Collection.insertEntry_grows inserted⟩
  rcases List.mem_append.mp hr with hr | hr
  · exact keyCarries r hr
  · exact carries r hr

/-- A step has found nothing left, or there was an entry and the cursor has moved on. -/
def Steps (op : Op (Option α)) (s : State) (ref : Ref) (c : Collection) : Prop :=
  op.Meets s (fun found t => found = none ∧ t = s ∨ found ≠ none ∧ c.cursor < c.count ∧
    t.heap.payloadAt ref.number = some (.collection c.advance)) s.Refused

theorem nextMember_steps (behind : s.Behind h ref c) : (Op.nextMember h).Steps s ref c := by
  by_cases kind_eq : c.kind = .set
  · cases current : c.current? with
    | none =>
      exact (nextMember_exhausted behind kind_eq current).imp (fun _ _ ended => .inl ended)
        fun _ _ none => none.elim
    | some entry =>
      have more : c.cursor < c.count := (List.getElem?_eq_some_iff.mp current).1
      refine (nextMember_exact behind kind_eq current).imp ?_ fun _ _ failed => failed.2.1
      rintro found t ⟨_, w, rfl, stepped⟩
      exact .inr ⟨by simp, more, stepped.payload⟩
  · exact (collection_behind behind .set).bind_refused behind.sound fun _ found =>
      absurd found.2 kind_eq

theorem nextEntry_steps (behind : s.Behind h ref c) : (Op.nextEntry h).Steps s ref c := by
  by_cases kind_eq : c.kind = .dict
  · cases current : c.current? with
    | none =>
      exact (nextEntry_exhausted behind kind_eq current).imp (fun _ _ ended => .inl ended)
        fun _ _ none => none.elim
    | some entry =>
      have more : c.cursor < c.count := (List.getElem?_eq_some_iff.mp current).1
      refine (nextEntry_exact behind kind_eq current).imp ?_ fun _ _ failed => failed.2.1
      rintro found t ⟨_, wk, wv, rfl, stepped⟩
      exact .inr ⟨by simp, more, stepped.payload⟩
  · exact (collection_behind behind .dict).bind_refused behind.sound fun _ found =>
      absurd found.2 kind_eq

theorem resetCursor_rewinds (behind : s.Behind h ref c) (kind : CollectionKind) :
    (resetCursor h kind).Meets s
      (fun _ t => t.heap.payloadAt ref.number = some (.collection c.reset)) s.Refused := by
  refine (collection_behind behind kind).bind_refused behind.sound fun found ⟨same, _⟩ => ?_
  subst same
  exact replace_puts behind (Heap.carries_nil _) ⟨rfl, fun r hr => .inl hr⟩

end Op

namespace Call

/-- A call turns the collection behind a handle into another one, or it is refused. -/
def TurnsInto (call : Call) (s : State) (ref : Ref) (c : Collection) : Prop :=
  call.body.Meets s (fun a t => ∃ c', t.heap.payloadAt ref.number = some (.collection c') ∧
    c.Turned call a.reply c') s.Refused

/-- What asking for the next entry does to the cursor. -/
theorem turned_of_next {call : Call} (asks : call.isNext) {reply : Reply}
    (behind : s.Behind h ref c)
    (stepped : reply = .bool false ∧ t = s ∨ reply = .bool true ∧ c.cursor < c.count ∧
      t.heap.payloadAt ref.number = some (.collection c.advance)) :
    ∃ c', t.heap.payloadAt ref.number = some (.collection c') ∧ c.Turned call reply c' := by
  have keeps : call.isReset = false := by
    cases call <;> first | rfl | cases asks
  rcases stepped with ⟨rfl, rfl⟩ | ⟨rfl, more, held⟩
  · exact ⟨c, behind.payload, by simp [keeps], id⟩
  · exact ⟨c.advance, held, by simp [keeps, asks, Collection.advance], fun _ => more⟩

/-- Whatever adds to a collection or moves its cursor does so as its kind of call says. -/
theorem body_turns {call : Call} (behind : s.Behind h ref c) (turn : call.isTurn)
    (primary : call.primary? = some h) : call.TurnsInto s ref c := by
  have sound := behind.sound
  cases call with
  | push _ item =>
    cases primary
    exact (pushItem_grows behind item).bind fun _ t ⟨c', held, cursor_eq, count_le⟩ =>
      meets_pure ⟨c', held, Collection.turned_of_added rfl rfl cursor_eq count_le⟩
  | insertMember _ item =>
    cases primary
    exact (insertMember_grows behind item).bind fun _ t ⟨c', held, cursor_eq, count_le⟩ =>
      meets_pure ⟨c', held, Collection.turned_of_added rfl rfl cursor_eq count_le⟩
  | insertEntry _ key item =>
    cases primary
    exact (insertEntry_grows behind key item).bind fun _ t ⟨c', held, cursor_eq, count_le⟩ =>
      meets_pure ⟨c', held, Collection.turned_of_added rfl rfl cursor_eq count_le⟩
  | nextEntry _ keyWanted valueWanted =>
    cases primary
    refine (requireOutput_finds _).bind_refused sound fun _ _ => ?_
    refine (nextEntry_steps behind).bind fun found t stepped => ?_
    rcases stepped with ⟨rfl, rfl⟩ | ⟨some, moved⟩
    · exact meets_pure (turned_of_next rfl behind (.inl ⟨rfl, rfl⟩))
    · obtain ⟨ws, rfl⟩ := Option.ne_none_iff_exists'.mp some
      exact meets_pure (turned_of_next rfl behind (.inr ⟨rfl, moved⟩))
  | nextMember _ wanted =>
    cases primary
    refine (requireOutput_finds _).bind_refused sound fun _ _ => ?_
    refine (nextMember_steps behind).bind fun found t stepped => ?_
    rcases stepped with ⟨rfl, rfl⟩ | ⟨some, moved⟩
    · exact meets_pure (turned_of_next rfl behind (.inl ⟨rfl, rfl⟩))
    · obtain ⟨w, rfl⟩ := Option.ne_none_iff_exists'.mp some
      exact meets_pure (turned_of_next rfl behind (.inr ⟨rfl, moved⟩))
  | reset kind _ =>
    cases primary
    exact (resetCursor_rewinds behind kind).bind fun _ t held =>
      meets_pure ⟨c.reset, held, rfl, fun _ => Nat.zero_le _⟩
  | _ => cases turn

end Call

namespace Event

/-- The call has handed out an entry of the collection with a number. -/
def steps (e : Event) (n : Nat) : Bool :=
  e.call.isNext && e.before.subject? e.call == some n && e.answer.reply == .bool true

/-- The call has put the cursor of the collection with a number back. -/
def rewinds (e : Event) (n : Nat) : Bool :=
  e.call.isReset && e.before.subject? e.call == some n && e.succeeds

/-- The number of entries that have been handed out since the last reset, after one more call. -/
def tally (n count : Nat) (e : Event) : Nat :=
  if e.rewinds n then 0 else if e.steps n then count + 1 else count

variable {e : Event} {count : Nat}

theorem tally_of_aside (aside : e.before.subject? e.call ≠ some n) : e.tally n count = count := by
  simp [tally, rewinds, steps, aside]

theorem tally_of_not_isTurn (other : e.call.isTurn = false) : e.tally n count = count := by
  have neither : e.call.isReset = false ∧ e.call.isNext = false := by
    obtain ⟨before, thread, call⟩ := e
    cases call <;> first | exact ⟨rfl, rfl⟩ | cases other
  simp [tally, rewinds, steps, neither]

/-- A call that fails counts for nothing. -/
theorem tally_of_failure (failed : e.succeeds = false)
    (answer_eq : e.answer = ⟨e.call.sentinel, []⟩) : e.tally n count = count := by
  have silent : e.steps n = false := by
    obtain ⟨before, thread, call⟩ := e
    cases call <;> simp [steps, Call.isNext, answer_eq, Call.sentinel]
  simp [tally, rewinds, silent, failed]

theorem tally_of_turned {reply : Reply} (subject : e.before.subject? e.call = some n)
    (done : e.succeeds = true) (reply_eq : e.answer.reply = reply)
    (turned : c.Turned e.call reply c') : c'.cursor = e.tally n c.cursor := by
  rw [turned.cursor_eq]
  simp [tally, rewinds, steps, subject, done, reply_eq]

/-- The object that a call is about, with its handle. -/
theorem exists_of_subject? (subject : e.before.subject? e.call = some n) :
    ∃ h ref, e.call.primary? = some h ∧ e.before.handles.bound? h = some ref ∧ ref.number = n := by
  obtain ⟨ref, found, number⟩ := Option.map_eq_some_iff.mp subject
  obtain ⟨h, primary, bound⟩ := Option.bind_eq_some_iff.mp found
  exact ⟨h, ref, primary, bound, number⟩

/-- A call is about no object that is not there yet. -/
theorem aside_of_new (sound : e.before.Sound) (new : e.before.heap.objects.length ≤ n) :
    e.before.subject? e.call ≠ some n := by
  intro subject
  obtain ⟨h, ref, _, bound, rfl⟩ := exists_of_subject? subject
  exact absurd (sound.has bound).lt_length (Nat.not_lt.mpr new)

end Event

/-- Behind a handle of an object that is a collection after a call is one before it. -/
theorem State.Behind.of_after {e : Event} (reachable : e.before.Reachable)
    (exported : e.call.Exported) (bound : e.before.handles.bound? h = some ref)
    (found : e.after.heap.payloadAt ref.number = some (.collection c')) :
    ref.tag.isInterface = false ∧ ∃ c, e.before.Behind h ref c := by
  have sound := reachable.sound
  have has := sound.has bound
  have advanced := advanced_perform sound e.thread exported
  have tag_eq := (advanced.sound.heap.fits_of_holds (has.evolves advanced.later) found).1
  obtain ⟨p, payload⟩ := (sound.holds_bound bound).payload
  have fits := sound.heap.fits_of_holds has payload
  rw [tag_eq] at fits
  obtain ⟨c, rfl⟩ := fits.exists_collection
  refine ⟨?_, c, sound, reachable.wellTyped, bound, payload⟩
  rw [tag_eq]
  cases c'.kind <;> rfl

/-- What a call that adds to a collection or moves its cursor has done in the end. -/
theorem Event.turned {e : Event} (behind : e.before.Behind h ref c) (turn : e.call.isTurn)
    (primary : e.call.primary? = some h) (subject : e.before.subject? e.call = some ref.number) :
    ∃ c', e.after.heap.payloadAt ref.number = some (.collection c') ∧
      c'.cursor = e.tally ref.number c.cursor ∧
      (c.cursor ≤ c.count → c'.cursor ≤ c'.count) := by
  have guarded : e.call.isGuarded := by
    obtain ⟨before, thread, call⟩ := e
    cases call <;> first | rfl | cases turn
  have turns := Call.body_turns behind.countCall turn primary
  rcases e.ends guarded with
    ⟨a, t, hr, done, answer, after⟩ | ⟨failure, t, hr, failed, answer, after⟩
  · obtain ⟨c', held, turned⟩ := turns.ok_of_run hr
    refine ⟨c', ?_, tally_of_turned subject done (by rw [answer]) turned, turned.within⟩
    rw [after]
    exact held
  · have untouched : e.before.Untouched e.thread e.after := by
      rw [after]
      exact (turns.bad_of_run hr).untouched behind.sound
    have small := (behind.sound.has behind.bound).lt_length
    refine ⟨c, (untouched.payloadAt_eq small).trans behind.payload, ?_, id⟩
    rw [tally_of_failure failed answer]

/-- A collection after a call is one that was there before, with the cursor where the call has put
it, or it is new and on its first entry. -/
theorem Event.collectionAt {e : Event} (reachable : e.before.Reachable)
    (exported : e.call.Exported) (found : e.after.heap.payloadAt n = some (.collection c')) :
    (∃ c, e.before.heap.payloadAt n = some (.collection c) ∧ c'.cursor = e.tally n c.cursor ∧
      (c.cursor ≤ c.count → c'.cursor ≤ c'.count)) ∨
    e.before.heap.objects.length ≤ n ∧ c'.cursor = 0 := by
  have sound := reachable.sound
  by_cases subject : e.before.subject? e.call = some n
  · obtain ⟨h, ref, primary, bound, rfl⟩ := exists_of_subject? subject
    obtain ⟨plain, c, behind⟩ := State.Behind.of_after reachable exported bound found
    refine .inl ⟨c, behind.payload, ?_⟩
    cases turn : e.call.isTurn with
    | true =>
      obtain ⟨c'', held, cursor_eq, within⟩ := Event.turned behind turn primary subject
      cases held.symm.trans found
      exact ⟨cursor_eq, within⟩
    | false =>
      -- The call is one for objects of interfaces, which it does not find behind this handle.
      have alters : e.before.Alters { e.before.errand e.call with subject := none } 1 e.after := by
        refine perform_alters_about sound reachable.forest e.thread e.call none ?_ fun turns => ?_
        · intro k other ref' bound' isInterface
          cases primary.symm.trans other
          cases bound.symm.trans bound'
          rw [plain] at isInterface
          cases isInterface
        · rw [turn] at turns
          cases turns
      rcases alters.collectionAt (by simp) found with same | ⟨new, _⟩
      · cases behind.payload.symm.trans same
        rw [tally_of_not_isTurn turn]
        exact ⟨rfl, id⟩
      · exact absurd (sound.has bound).lt_length (Nat.not_lt.mpr new)
  · rcases (perform_alters sound reachable.forest e.thread e.call).collectionAt subject found with
      same | new
    · exact .inl ⟨c', same, by rw [tally_of_aside subject], id⟩
    · exact .inr new

/-! ### Cursors along runs -/

/-- The number of entries of a collection that calls have handed out since it was made or reset
last. -/
def stepsSince (n : Nat) (history : List Event) : Nat := history.foldl (Event.tally n) 0

theorem stepsSince_concat (n : Nat) (history : List Event) (e : Event) :
    stepsSince n (history ++ [e]) = e.tally n (stepsSince n history) := by
  simp [stepsSince]

namespace Run

variable {history : List Event}

/-- Nothing has been handed out of a collection that is not there yet. -/
theorem stepsSince_of_new (run : Run history s) (new : s.heap.objects.length ≤ n) :
    stepsSince n history = 0 := by
  induction run with
  | start => rfl
  | @call history s run thread call exported ih =>
    have sound := run.reachable.sound
    have grown := (perform_alters sound run.reachable.forest thread call).framed.length_le
    have unmade : s.heap.objects.length ≤ n := grown.trans new
    rw [stepsSince_concat, Event.tally_of_aside (Event.aside_of_new sound unmade)]
    exact ih unmade
  | surroundings run options files now ih => exact ih new

/-- The cursor of every collection counts what has been handed out of it, and it is within the
entries. -/
theorem cursor_eq (run : Run history s) (held : s.heap.payloadAt n = some (.collection c)) :
    c.cursor = stepsSince n history ∧ c.cursor ≤ c.count := by
  induction run generalizing c with
  | start => cases held
  | @call history s run thread call exported ih =>
    rw [stepsSince_concat]
    rcases Event.collectionAt (e := ⟨s, thread, call⟩) run.reachable exported held with
      ⟨before, old, cursor_eq, within⟩ | ⟨new, unread⟩
    · obtain ⟨counted, inside⟩ := ih old
      exact ⟨by rw [cursor_eq, counted], within inside⟩
    · rw [Event.tally_of_aside (Event.aside_of_new run.reachable.sound new),
        run.stepsSince_of_new new, unread]
      exact ⟨rfl, Nat.zero_le _⟩
  | surroundings run options files now ih => exact ih held

end Run

/-! ### Schedules -/

/-- One turn in an enumeration, by some thread: a step, a reset, or a change of the limit. -/
inductive Turn where
  | next (thread : Nat)
  | reset (thread : Nat)
  | limit (most : Nat)

/-- What a step has written: the state that it leaves, and the number of objects before it. -/
structure Delivery where
  first : Nat
  after : State
  written : List Wire

/-- What was written stands for an entry. -/
def Delivery.Renders (kind : CollectionKind) (entry : Entry) (d : Delivery) : Prop :=
  List.Forall₂ (d.after.Shows d.first) (entry.parts kind) d.written

namespace State

variable {kind : CollectionKind}

def turn (s : State) (kind : CollectionKind) (h : Handle) : Turn → State
  | .next thread => (s.asks kind h thread).after
  | .reset thread => (s.perform thread (.reset kind h)).2
  | .limit most => { s with options := { s.options with maxLiveHandles := most } }

/-- The turn is a step that fails. -/
def balks (s : State) (kind : CollectionKind) (h : Handle) : Turn → Bool
  | .next thread => (s.asks kind h thread).lastError.code != .none
  | _ => false

def delivery? (s : State) (kind : CollectionKind) (h : Handle) : Turn → Option Delivery
  | .next thread =>
    let e := s.asks kind h thread
    if e.answer.reply = .bool true then
      some ⟨s.heap.objects.length, e.after, e.answer.written⟩
    else none
  | _ => none

def deliveries (s : State) (kind : CollectionKind) (h : Handle) : List Turn → List Delivery
  | [] => []
  | turn :: turns =>
    (s.delivery? kind h turn).toList ++ (s.turn kind h turn).deliveries kind h turns

/-- A schedule without its steps that fail. -/
def withoutFailures (s : State) (kind : CollectionKind) (h : Handle) : List Turn → List Turn
  | [] => []
  | turn :: turns =>
    let rest := (s.turn kind h turn).withoutFailures kind h turns
    if s.balks kind h turn then rest else turn :: rest

/-- Two states in the middle of the same enumeration. The second one has at least as much room for
handles as the first. -/
structure Parallel (s t : State) (h : Handle) (ref : Ref) (c : Collection) : Prop where
  left : s.Behind h ref c
  right : t.Behind h ref c
  limit_eq : t.options.maxLiveHandles = s.options.maxLiveHandles
  live_eq : t.handles.live = s.handles.live
  room_le : s.handles.room ≤ t.handles.room

theorem Parallel.refl (behind : s.Behind h ref c) : s.Parallel s h ref c :=
  ⟨behind, behind, rfl, rfl, le_rfl⟩

theorem Parallel.grants (parallel : s.Parallel t h ref c) (granted : s.Grants n) : t.Grants n := by
  have := parallel.room_le
  simp only [Grants, HandleTable.Grants, parallel.limit_eq, parallel.live_eq] at granted ⊢
  omega

/-- As many handles have been given out on both sides. -/
theorem Parallel.spend {s' t' : State} (parallel : s.Parallel t h ref c) (left : s'.Behind h ref c')
    (right : t'.Behind h ref c') (spends : s.Spends n s') (spends' : t.Spends n t') :
    s'.Parallel t' h ref c' where
  left := left
  right := right
  limit_eq := by rw [spends.options_eq, spends'.options_eq, parallel.limit_eq]
  live_eq := by rw [spends.live_eq, spends'.live_eq, parallel.live_eq]
  room_le := by
    have := parallel.room_le
    have := spends.room_eq
    have := spends'.room_eq
    omega

/-- A turn that is not left out comes to the same on both sides. -/
structure Parallel.Turns (s t : State) (h : Handle) (ref : Ref) (kind : CollectionKind)
    (turn : Turn) : Prop where
  parallel : ∃ c, c.kind = kind ∧ (s.turn kind h turn).Parallel (t.turn kind h turn) h ref c
  rendered : ∃ entries,
    List.Forall₂ (Delivery.Renders kind) entries (s.delivery? kind h turn).toList ∧
    List.Forall₂ (Delivery.Renders kind) entries (t.delivery? kind h turn).toList

theorem Parallel.next (parallel : s.Parallel t h ref c) (stepped : c.kind ≠ .array)
    (thread : Nat) :
    (s.balks c.kind h (.next thread) ∧ s.delivery? c.kind h (.next thread) = none ∧
        (s.turn c.kind h (.next thread)).Parallel t h ref c) ∨
      s.balks c.kind h (.next thread) = false ∧ Parallel.Turns s t h ref c.kind (.next thread) := by
  have left := parallel.left.next_ends stepped thread
  have right := parallel.right.next_ends stepped thread
  cases left with
  | refused entry current denied answer_eq recorded untouched room_le behind =>
    refine .inl ⟨by simpa [balks] using recorded, ?_, behind, parallel.right, ?_, ?_, ?_⟩
    · simp [delivery?, answer_eq]
    · rw [turn, untouched.options_eq]
      exact parallel.limit_eq
    · rw [turn, untouched.live_eq]
      exact parallel.live_eq
    · exact room_le.trans parallel.room_le
  | exhausted ended answer_eq cleared spends behind =>
    refine .inr ⟨by simpa [balks] using cleared, ?_⟩
    cases right with
    | exhausted _ answer_eq' _ spends' behind' =>
      refine ⟨⟨c, rfl, parallel.spend behind behind' spends spends'⟩, [], ?_, ?_⟩
      · simp [delivery?, answer_eq]
      · simp [delivery?, answer_eq']
    | told entry ws current | refused entry current =>
      cases ended.symm.trans current
  | told entry ws current passable granted answer_eq cleared shows spends behind =>
    refine .inr ⟨by simpa [balks] using cleared, ?_⟩
    cases right with
    | exhausted ended => cases ended.symm.trans current
    | told entry' ws' current' _ _ answer_eq' _ shows' spends' behind' =>
      cases current.symm.trans current'
      refine ⟨⟨c.advance, rfl, parallel.spend behind behind' spends spends'⟩, [entry], ?_, ?_⟩
      · simpa [delivery?, answer_eq, Delivery.Renders] using shows
      · simpa [delivery?, answer_eq', Delivery.Renders] using shows'
    | refused entry' current' denied =>
      cases current.symm.trans current'
      exact absurd ⟨passable, parallel.grants granted⟩ denied

/-- Resetting gives out nothing. -/
theorem Behind.reset_ends (behind : s.Behind h ref c) (stepped : c.kind ≠ .array) (thread : Nat) :
    (s.turn c.kind h (.reset thread)).Behind h ref c.reset ∧
      s.Spends 0 (s.turn c.kind h (.reset thread)) := by
  let e : Event := ⟨s, thread, .reset c.kind h⟩
  have decides := Call.reset_exact behind.countCall
  rcases e.ends rfl with ⟨a, t, hr, _, _, after⟩ | ⟨failure, t, hr, _, _, _⟩
  · obtain ⟨_, handles_eq, options_eq, payload⟩ := decides.ok_of_run hr
    have same : e.after.handles = s.handles := by
      rw [after]
      exact handles_eq
    have held : e.after.heap.payloadAt ref.number = some (.collection c.reset) := by
      rw [after]
      exact payload
    have options : e.after.options = s.options := by
      rw [after]
      exact options_eq
    refine ⟨behind.perform (CollectionKind.exported_reset stepped h) ?_ held, ?_, ?_, options⟩
    · exact same ▸ behind.bound
    · exact congrArg HandleTable.room same
    · exact congrArg HandleTable.live same
  · exact (decides.bad_of_run hr).elim

/-- A turn can be left out because it fails, or it comes to the same on both sides. -/
theorem Parallel.turns (parallel : s.Parallel t h ref c) (stepped : c.kind ≠ .array)
    (turn : Turn) :
    (s.balks c.kind h turn ∧ s.delivery? c.kind h turn = none ∧
        (s.turn c.kind h turn).Parallel t h ref c) ∨
      s.balks c.kind h turn = false ∧ Parallel.Turns s t h ref c.kind turn := by
  cases turn with
  | next thread => exact parallel.next stepped thread
  | reset thread =>
    obtain ⟨left, spends⟩ := parallel.left.reset_ends stepped thread
    obtain ⟨right, spends'⟩ := parallel.right.reset_ends stepped thread
    exact .inr ⟨rfl, ⟨c.reset, rfl, parallel.spend left right spends spends'⟩, [], .nil, .nil⟩
  | limit most =>
    have limited (s : State) (behind : s.Behind h ref c) :
        (s.turn c.kind h (.limit most)).Behind h ref c :=
      ⟨behind.sound.of_eq rfl rfl rfl rfl rfl, behind.typed, behind.bound, behind.payload⟩
    refine .inr ⟨rfl, ⟨c, rfl, limited s parallel.left, limited t parallel.right, rfl, ?_, ?_⟩,
      [], .nil, .nil⟩
    · exact parallel.live_eq
    · exact parallel.room_le

/-- Leaving out the steps that fail changes nothing about what is delivered. -/
theorem Parallel.deliveries (parallel : s.Parallel t h ref c) (stepped : c.kind ≠ .array)
    (turns : List Turn) :
    ∃ entries, List.Forall₂ (Delivery.Renders c.kind) entries (s.deliveries c.kind h turns) ∧
      List.Forall₂ (Delivery.Renders c.kind) entries
        (t.deliveries c.kind h (s.withoutFailures c.kind h turns)) := by
  -- The states of both sides stay in the same enumeration, turn by turn.
  induction turns generalizing s t c with
  | nil => exact ⟨[], .nil, .nil⟩
  | cons turn turns ih =>
    rcases parallel.turns stepped turn with ⟨balks, nothing, skipped⟩ | ⟨goes, both⟩
    · obtain ⟨entries, first, second⟩ := ih skipped stepped
      refine ⟨entries, ?_, ?_⟩
      · rw [State.deliveries, nothing]
        exact first
      · rw [withoutFailures, if_pos balks]
        exact second
    · obtain ⟨c', kind_eq, next⟩ := both.parallel
      obtain ⟨entries, first, second⟩ := both.rendered
      rw [← kind_eq] at stepped first second goes next ⊢
      obtain ⟨rest, firstRest, secondRest⟩ := ih next stepped
      refine ⟨entries ++ rest, List.rel_append first firstRest, ?_⟩
      rw [withoutFailures, if_neg (by simp [goes])]
      exact List.rel_append second secondRest

end State

/-! ### Enumerations after any calls -/

/-- What a step comes to after so many entries of a collection have been visited. -/
structure Event.Visits (e : Event) (c : Collection) (visited : Nat) : Prop where
  /-- There is a next entry, its parts are passable, and there are handles for them. -/
  told_iff : e.answer.reply = .bool true ↔ ∃ entry, c.entries[visited]? = some entry ∧
    entry.Passable c.kind ∧ e.before.Grants (entry.width c.kind)
  /-- What is written then stands for that entry. -/
  shows : e.answer.reply = .bool true → ∃ entry, c.entries[visited]? = some entry ∧
    List.Forall₂ (e.after.Shows e.before.heap.objects.length) (entry.parts c.kind) e.answer.written
  /-- The end is told without an error once all entries have been visited. -/
  ended_iff : e.answer.reply = .bool false ∧ e.lastError.code = .none ↔ visited = c.count
  untouched : e.lastError.code ≠ .none → e.before.Untouched e.thread e.after

/-- The place of the cursor decides how a step ends. -/
theorem Event.NextEnds.visits {e : Event} (ends : e.NextEnds h ref c)
    (inside : c.cursor ≤ c.count) : e.Visits c c.cursor := by
  have ended_iff : c.current? = none ↔ c.cursor = c.count := by
    unfold Collection.count at inside ⊢
    rw [Collection.current?, List.getElem?_eq_none_iff]
    omega
  have unended {entry : Entry} (current : c.current? = some entry) : c.cursor ≠ c.count := by
    intro all
    cases (ended_iff.mpr all).symm.trans current
  cases ends with
  | exhausted ended answer_eq cleared spends behind =>
    have nothing : ∀ entry, c.entries[c.cursor]? ≠ some entry := fun entry found => by
      cases ended.symm.trans found
    constructor
    · rw [answer_eq]
      exact iff_of_false (fun other => by cases other) fun ⟨entry, found, _⟩ => nothing entry found
    · rw [answer_eq]
      exact fun other => by cases other
    · rw [answer_eq]
      exact iff_of_true ⟨rfl, cleared⟩ (ended_iff.mp ended)
    · exact fun failed => absurd cleared failed
  | told entry ws current passable granted answer_eq cleared shows spends behind =>
    constructor
    · rw [answer_eq]
      exact iff_of_true rfl ⟨entry, current, passable, granted⟩
    · rw [answer_eq]
      exact fun _ => ⟨entry, current, shows⟩
    · rw [answer_eq]
      exact iff_of_false (fun ⟨other, _⟩ => by cases other) (unended current)
    · exact fun failed => absurd cleared failed
  | refused entry current denied answer_eq recorded untouched room_le behind =>
    constructor
    · rw [answer_eq]
      refine iff_of_false (fun other => by cases other) ?_
      rintro ⟨other, found, granted⟩
      cases current.symm.trans found
      exact denied granted
    · rw [answer_eq]
      exact fun other => by cases other
    · exact iff_of_false (fun ⟨_, cleared⟩ => recorded cleared) (unended current)
    · exact fun _ => untouched

/-- Whatever was called before, a step tells the entry after those that have been handed out since
the last reset, as it is then. The end is told when all entries have been handed out. A step that
fails leaves everything as it was, so leaving out all such steps changes nothing about the entries
that are delivered. -/
theorem Run.enumeration_exact {history : List Event} (run : Run history s)
    (bound : s.handles.bound? h = some ref)
    (held : s.heap.payloadAt ref.number = some (.collection c)) (stepped : c.kind ≠ .array) :
    (∀ thread, (s.asks c.kind h thread).Visits c (stepsSince ref.number history)) ∧
    ∀ turns, ∃ entries,
      List.Forall₂ (Delivery.Renders c.kind) entries (s.deliveries c.kind h turns) ∧
      List.Forall₂ (Delivery.Renders c.kind) entries
        (s.deliveries c.kind h (s.withoutFailures c.kind h turns)) := by
  have behind : s.Behind h ref c := ⟨run.reachable.sound, run.reachable.wellTyped, bound, held⟩
  obtain ⟨cursor_eq, inside⟩ := run.cursor_eq held
  refine ⟨fun thread => ?_, (Parallel.refl behind).deliveries stepped⟩
  rw [← cursor_eq]
  exact (behind.next_ends stepped thread).visits inside

/-- A key and a value are texts, and there is a handle for one of them only: the entry is refused.
It is delivered when there are handles for both. -/
theorem Run.entry_told_at_last :
    let dict : Handle := ⟨0x100000001⟩
    let built := performAll {} [(0, .newCollection .dict), (0, .createText (.text "k")),
      (0, .createText (.text "v")),
      (0, .insertEntry dict (.handle ⟨0x100000002⟩) (.handle ⟨0x100000003⟩))]
    let s : State := { built with options := { maxLiveHandles := 4 } }
    let turns : List Turn := [.next 1, .limit 5, .next 1, .next 2]
    (s.asks .dict dict 1).lastError.code = .handleLimit ∧
      s.Untouched 1 (s.asks .dict dict 1).after ∧
      (s.withoutFailures .dict dict turns).length = 3 ∧
      ∃ entry, List.Forall₂ (Delivery.Renders .dict) [entry] (s.deliveries .dict dict turns) ∧
        List.Forall₂ (Delivery.Renders .dict) [entry]
          (s.deliveries .dict dict (s.withoutFailures .dict dict turns)) := by
  intro dict built s turns
  have run : ∃ history, Run history s := by
    refine ⟨_, ((((Run.start.call 0 ?_).call 0 ?_).call 0 ?_).call 0 ?_).surroundings _ _ _⟩
    · exact .of_symbol "idlbridge_dict_new" [] rfl
    · exact .of_symbol "idlbridge_string_create" [.text (.text "k")] rfl
    · exact .of_symbol "idlbridge_string_create" [.text (.text "v")] rfl
    · exact .of_symbol "idlbridge_dict_insert" [.handle _, .wire _, .wire _] rfl
  have facts : (s.asks .dict dict 1).lastError.code = .handleLimit ∧
      (s.withoutFailures .dict dict turns).length = 3 ∧
      (s.deliveries .dict dict turns).length = 1 ∧ s.handles.bound? dict = some ⟨0, .dict⟩ ∧
      (s.collection? ⟨0, .dict⟩).map Collection.kind = some .dict := by
    decide +kernel
  obtain ⟨history, run⟩ := run
  obtain ⟨limit, kept, delivered, bound, isDict⟩ := facts
  clear_value s
  obtain ⟨c, held, kind_eq⟩ := Option.map_eq_some_iff.mp isDict
  have enumerates := Run.enumeration_exact run bound (collection?_eq_some_iff.mp held)
    (by rw [kind_eq]; decide)
  rw [kind_eq] at enumerates
  obtain ⟨visits, rendered⟩ := enumerates
  obtain ⟨entries, first, second⟩ := rendered turns
  obtain ⟨entry, rfl⟩ : ∃ entry, entries = [entry] :=
    List.length_eq_one_iff.mp (first.length_eq.trans delivered)
  exact ⟨limit, (visits 1).untouched (by rw [limit]; decide), kept, entry, first, second⟩

/-! ### Enumerations without a reset -/

def Turn.isReset : Turn → Bool
  | .reset _ => true
  | .next _ | .limit _ => false

namespace State

def afterTurns (s : State) (kind : CollectionKind) (h : Handle) (turns : List Turn) : State :=
  turns.foldl (fun t turn => t.turn kind h turn) s

/-- A schedule has delivered the first entries of a collection, and the next step comes after these.
-/
structure Lists (s : State) (h : Handle) (c : Collection) (turns : List Turn) : Prop where
  delivered : List.Forall₂ (Delivery.Renders c.kind)
    (c.entries.take (s.deliveries c.kind h turns).length) (s.deliveries c.kind h turns)
  next : ∀ thread, ((s.afterTurns c.kind h turns).asks c.kind h thread).Visits c
    (s.deliveries c.kind h turns).length

/-- A turn that does not put the cursor back delivers nothing, or the entry under the cursor. -/
theorem Behind.turn (behind : s.Behind h ref c) (stepped : c.kind ≠ .array) {turn : Turn}
    (onward : turn.isReset = false) :
    (s.delivery? c.kind h turn = none ∧ (s.turn c.kind h turn).Behind h ref c) ∨
      ∃ entry d, c.current? = some entry ∧ s.delivery? c.kind h turn = some d ∧
        d.Renders c.kind entry ∧ (s.turn c.kind h turn).Behind h ref c.advance := by
  cases turn with
  | next thread =>
    cases behind.next_ends stepped thread with
    | exhausted ended answer_eq cleared spends behind =>
      exact .inl ⟨by simp [delivery?, answer_eq], behind⟩
    | told entry ws current passable granted answer_eq cleared shows spends behind =>
      exact .inr ⟨entry, ⟨s.heap.objects.length, (s.asks c.kind h thread).after, ws⟩, current,
        by simp [delivery?, answer_eq], shows, behind⟩
    | refused entry current denied answer_eq recorded untouched room_le behind =>
      exact .inl ⟨by simp [delivery?, answer_eq], behind⟩
  | reset thread => cases onward
  | limit most =>
    exact .inl ⟨rfl, behind.sound.of_eq rfl rfl rfl rfl rfl, behind.typed, behind.bound,
      behind.payload⟩

/-- Entries are delivered in order from the cursor on, which moves past those delivered. -/
theorem Behind.turns (behind : s.Behind h ref c) (stepped : c.kind ≠ .array) {turns : List Turn}
    (onward : ∀ turn ∈ turns, turn.isReset = false) :
    let delivered := s.deliveries c.kind h turns
    List.Forall₂ (Delivery.Renders c.kind) ((c.entries.drop c.cursor).take delivered.length)
        delivered ∧
      (s.afterTurns c.kind h turns).Behind h ref
        { c with cursor := c.cursor + delivered.length } := by
  induction turns generalizing s c with
  | nil => exact ⟨.nil, behind⟩
  | cons turn turns ih =>
    have rest := fun other member => onward other (List.mem_cons_of_mem _ member)
    obtain ⟨nothing, behind'⟩ | ⟨entry, d, current, delivered, renders, behind'⟩ :=
      behind.turn stepped (onward turn List.mem_cons_self)
    · rw [deliveries, nothing]
      exact ih behind' stepped rest
    · obtain ⟨all, last⟩ := ih behind' stepped rest
      have under : c.entries.drop c.cursor = entry :: c.entries.drop (c.cursor + 1) := by
        obtain ⟨small, rfl⟩ := List.getElem?_eq_some_iff.mp current
        exact List.drop_eq_getElem_cons small
      rw [deliveries, delivered]
      refine ⟨?_, ?_⟩
      · rw [under]
        exact .cons renders all
      · rw [Option.toList_some, List.singleton_append, List.length_cons, Nat.add_comm _ 1,
          ← Nat.add_assoc]
        exact last

/-- A collection on its first entry is listed in order. -/
theorem Behind.lists (behind : s.Behind h ref c) (stepped : c.kind ≠ .array)
    (first : c.cursor = 0) {turns : List Turn} (onward : ∀ turn ∈ turns, turn.isReset = false) :
    s.Lists h c turns := by
  obtain ⟨delivered, last⟩ := behind.turns stepped onward
  rw [first, List.drop_zero] at delivered
  rw [first, Nat.zero_add] at last
  refine ⟨delivered, fun thread => ?_⟩
  have inside : (s.deliveries c.kind h turns).length ≤ c.count := by
    rw [← delivered.length_eq, List.length_take]
    exact Nat.min_le_right _ _
  have visits := (last.next_ends stepped thread).visits inside
  exact ⟨visits.told_iff, visits.shows, visits.ended_iff, visits.untouched⟩

end State

end ObjectBoundary
