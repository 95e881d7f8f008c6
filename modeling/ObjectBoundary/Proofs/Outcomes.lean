import Mathlib.Data.Set.Card
import ObjectBoundary.Proofs.Bookkeeping
import ObjectBoundary.Proofs.FailedCalls

/-!
# Outcomes of calls

Every call of a run has one outcome, and it is entered everywhere or nowhere: in the answer, in the
recorded error of the calling thread, and in the counters. The counters of a state are the numbers
of calls of each kind that led to it, and they agree with the handles and objects that are there.
-/

namespace ObjectBoundary

/-! ### Messages -/

namespace LastError

/-- The message of a fault can be lent as a text that ends at the first NUL. -/
theorem nul_notMem_ofFault (fault : Fault) : '\x00' ∉ (ofFault fault).message.toList := by
  rw [ofFault, String.toList_ofList, List.mem_flatMap]
  rintro ⟨c, -, hc⟩
  split at hc
  · exact absurd hc (by decide)
  · next hne => exact hne (List.mem_singleton.mp hc).symm

/-- Spelling out NULs leaves the name of the code, which has none, at the start. -/
theorem ofFault_message (fault : Fault) :
    ∃ detail, (ofFault fault).message = fault.code.name ++ ": " ++ detail := by
  have named (code : ErrorCode) : code.name.toList.flatMap (fun c =>
      if c = '\x00' then ['\\', '0'] else [c]) = code.name.toList := by
    cases code <;> decide
  refine ⟨String.ofList (fault.detail.toList.flatMap fun c =>
    if c = '\x00' then ['\\', '0'] else [c]), String.toList_injective ?_⟩
  simp [ofFault, Fault.message, named]

theorem number_ofFault_ne_zero (fault : Fault) : (ofFault fault).code.number ≠ 0 := by
  have positive (code : ErrorCode) (hne : code ≠ .none) : code.number ≠ 0 := by
    cases code <;> simp [ErrorCode.number] at hne ⊢
  exact positive fault.code fault.code_ne_none

end LastError

/-! ### Answers -/

namespace Reply

/-- The sentinel of the type of a reply. -/
def zero : Reply → Reply
  | .unit => .unit
  | .bool _ => .bool false
  | .i32 _ => .i32 0
  | .i64 _ => .i64 0
  | .size _ => .size 0
  | .f32 _ => .f32 0
  | .f64 _ => .f64 0
  | .handle _ => .handle .null
  | .text _ => .text none
  | .wire _ => .wire .void

theorem zero_ofWire (kind : Kind) (w : Wire) : (ofWire kind w).zero = sentinel kind := by
  cases kind <;> rfl

end Reply

namespace Op

variable {α β : Type} {s : State} {wanted : β → Prop}

/-- What the last step of a request gives is what the request gives. -/
theorem gives_bind {op : Op α} {next : α → Op β}
    (hnext : ∀ a t, (next a).Meets t (fun b _ => wanted b) fun _ _ => True) :
    (op >>= next).Meets s (fun b _ => wanted b) fun _ _ => True := by
  have any : op.Meets s (fun _ _ => True) fun _ _ => True := by
    unfold Meets
    split <;> trivial
  exact any.bind fun a t _ => hnext a t

end Op

open Op

/-- An entry point with a result has one whenever it succeeds. -/
theorem Binding.run_isSome (b : Binding) (s : State) (h : Handle) (ws : List Wire) :
    (b.run h ws).Meets s (fun found _ => found.isSome = b.result?.isSome) fun _ _ => True := by
  obtain ⟨symbol, role, member, access⟩ := b
  refine gives_bind fun ids t => ?_
  cases access with
  | get kind => exact gives_bind fun w _ => gives_bind fun _ _ => meets_pure rfl
  | set kind => exact gives_bind fun _ _ => meets_pure rfl
  | call parameters result =>
    cases result with
    | none => exact gives_bind fun _ _ => meets_pure rfl
    | some kind => exact gives_bind fun w _ => gives_bind fun _ _ => meets_pure rfl

/-- The three calls about the last error pass the guard by. -/
def Call.isGuarded : Call → Bool
  | .lastErrorText | .lastErrorCode | .clearLastError => false
  | _ => true

/-- A call that succeeds answers in the type of its sentinel. -/
theorem Call.body_replies {call : Call} (guarded : call.isGuarded) (s : State) :
    call.body.Meets s (fun answer _ => answer.reply.zero = call.sentinel) fun _ _ => True := by
  cases call with
  | lastErrorText | lastErrorCode | clearLastError => cases guarded
  | member b h ws =>
    refine (b.run_isSome s h ws).bind fun found t agrees => ?_
    simp only [sentinel]
    cases found with
    | none =>
      have plain : b.result? = none := by simpa using agrees.symm
      rw [plain]
      exact meets_pure rfl
    | some w =>
      obtain ⟨kind, result⟩ := Option.isSome_iff_exists.mp agrees.symm
      rw [result]
      exact meets_pure (Reply.zero_ofWire kind w)
  | getProperty h name wanted =>
    exact gives_bind fun _ _ => gives_bind fun _ _ => gives_bind fun _ _ => gives_bind fun _ _ =>
      meets_pure rfl
  | invoke h method arguments count wanted =>
    refine gives_bind fun _ _ => gives_bind fun _ _ => gives_bind fun _ _ => gives_bind fun w t =>
      ?_
    cases wanted with
    | true => exact meets_pure rfl
    | false =>
      simp only [deliver, Bool.false_eq_true, if_false]
      split
      · exact gives_bind fun _ _ => meets_pure rfl
      · exact meets_pure rfl
  | item h index wanted => exact gives_bind fun _ _ => gives_bind fun _ _ => meets_pure rfl
  | nextEntry h keyWanted valueWanted =>
    refine gives_bind fun _ _ => gives_bind fun found _ => ?_
    cases found <;> exact meets_pure rfl
  | nextMember h wanted =>
    refine gives_bind fun _ _ => gives_bind fun found _ => ?_
    cases found <;> exact meets_pure rfl
  | cleanUp => exact meets_pure rfl
  | _ => exact gives_bind fun _ _ => meets_pure rfl

/-! ### Handles that resolve -/

/-- The places of a list at which something holds are as many as the items of which it holds. -/
theorem ncard_places {α : Type} (p : α → Bool) (items : List α) :
    {i : Nat | items[i]?.any p}.ncard = items.countP p := by
  induction items with
  | nil => simp
  | cons item items ih =>
    have finite : (Nat.succ '' {i : Nat | items[i]?.any p}).Finite := by
      refine ((Set.finite_lt_nat items.length).subset fun i hi => ?_).image _
      by_contra beyond
      simp [List.getElem?_eq_none (Nat.le_of_not_lt beyond)] at hi
    have rest : (Nat.succ '' {i : Nat | items[i]?.any p}).ncard = items.countP p :=
      (Set.ncard_image_of_injective _ Nat.succ_injective).trans ih
    have places : {i : Nat | (item :: items)[i]?.any p} =
        {i | i = 0 ∧ p item} ∪ Nat.succ '' {i : Nat | items[i]?.any p} := by
      ext i
      cases i <;> simp
    rw [places, List.countP_cons, ← rest]
    cases p item with
    | true =>
      have first : {i : Nat | i = 0 ∧ true = true} = {0} := by simp
      rw [first, Set.singleton_union, Set.ncard_insert_of_notMem (by simp) finite]
      simp
    | false => simp

/-- As many handles resolve as slots are occupied: the index of a live handle names its slot, and
the slot has the generation of the handle. -/
theorem HandleTable.WellFormed.ncard_resolving {table : HandleTable} (wf : table.WellFormed) :
    {h : Handle | ∃ ref, table.resolve h none = .ok ref}.ncard = table.live := by
  have resolves {h : Handle} {ref : Ref} : table.resolve h none = .ok ref ↔
      table.slots[h.index]? = some ⟨h.generation, some ref⟩ := by
    rw [resolve_eq_ok_iff, wf.bound?_iff]
    simp
  have injective : Set.InjOn Handle.index {h : Handle | ∃ ref, table.resolve h none = .ok ref} := by
    rintro h ⟨ref, hh⟩ k ⟨ref', hk⟩ same
    rw [resolves] at hh hk
    have slots := hh.symm.trans (same ▸ hk)
    simp only [Option.some.injEq, Slot.mk.injEq] at slots
    exact Handle.eq_of_parts (wf.index_lt hh) same slots.1
  have occupied : Handle.index '' {h : Handle | ∃ ref, table.resolve h none = .ok ref} =
      {i : Nat | table.slots[i]?.any (·.entry.isSome)} := by
    ext i
    constructor
    · rintro ⟨h, ⟨ref, hh⟩, rfl⟩
      simp [resolves.mp hh]
    · intro hi
      obtain ⟨⟨g, entry⟩, found, some⟩ := (Option.any_eq_true _ _).mp hi
      obtain ⟨ref, rfl⟩ := Option.isSome_iff_exists.mp some
      obtain ⟨h, rfl, -, bound⟩ := wf.exists_bound found
      exact ⟨h, ⟨ref, resolves.mpr (wf.bound?_iff.mp bound)⟩, rfl⟩
  rw [← injective.ncard_image, occupied, ncard_places, wf.live_eq]

/-! ### Runs -/

/-- A call of a thread, with the state that it finds. -/
structure Event where
  before : State
  thread : Nat
  call : Call

namespace Event

def answer (e : Event) : Answer := (e.before.perform e.thread e.call).1

def after (e : Event) : State := (e.before.perform e.thread e.call).2

/-- What the call does apart from the guard is done without a failure. -/
def succeeds (e : Event) : Bool := (e.before.countCall.run e.call.body).1.isOk

def fails (e : Event) : Bool := e.call.isGuarded && !e.succeeds

def releasesStale (e : Event) : Bool := e.before.releasesStale e.call

def lastError (e : Event) : LastError := e.after.lastErrors e.thread

/-- The outcome of a call is told in the same way wherever it is told. -/
structure Recorded (e : Event) : Prop where
  /-- There is no error on record exactly after a success. -/
  cleared_iff : e.call.isGuarded →
    (e.lastError.code.number = 0 ∧ e.lastError.message = "" ↔ e.succeeds)
  /-- A failure is answered with the sentinel, -/
  sentinel_of_fails : e.fails → e.answer = ⟨e.call.sentinel, []⟩
  /-- which is the one of the type of answer that a success has. -/
  zero_of_succeeds : e.call.isGuarded → e.succeeds → e.answer.reply.zero = e.call.sentinel
  code_of_fails : e.fails → e.lastError.code.number ≠ 0
  /-- The message of a failure begins with the name of its code and has no NUL. -/
  message_of_fails : e.fails → e.lastError.message ≠ "" ∧ '\x00' ∉ e.lastError.message.toList ∧
    ∃ detail, e.lastError.message = e.lastError.code.name ++ ": " ++ detail
  others_eq : ∀ other ≠ e.thread, e.after.lastErrors other = e.before.lastErrors other
  text_asked : e.call = .lastErrorText → e.after = e.before ∧
    e.answer = ⟨.text (some (e.before.lastErrors e.thread).message), []⟩
  code_asked : e.call = .lastErrorCode → e.after = e.before ∧
    e.answer = ⟨.i32 (Int32.ofNat (e.before.lastErrors e.thread).code.number), []⟩

/-- What a call adds to the books. -/
structure Entered (e : Event) : Prop where
  calls_eq : e.after.counters.calls =
    e.before.counters.calls + if e.call.isGuarded then 1 else 0
  failedCalls_eq : e.after.counters.failedCalls =
    e.before.counters.failedCalls + if e.fails then 1 else 0
  doubleReleases_eq : e.after.counters.doubleReleases =
    e.before.counters.doubleReleases + if e.releasesStale then 1 else 0
  others_eq : ∀ other ≠ e.thread, e.after.lastErrors other = e.before.lastErrors other
  balanced : e.before.Balanced → e.after.Balanced

end Event

/-- Calls that led from the first state to another one, the oldest first. Between them options,
files and the clock may change. -/
inductive Run : List Event → State → Prop where
  | start : Run [] {}
  | call {history : List Event} {s : State} (run : Run history s) (thread : Nat) {call : Call}
      (exported : call.Exported) :
      Run (history ++ [⟨s, thread, call⟩]) (s.perform thread call).2
  | surroundings {history : List Event} {s : State} (run : Run history s) (options : Options)
      (files : Files) (now : Int) : Run history { s with options, files, now }

/-- The counters of a state agree with the calls that led to it and with what is there. -/
structure State.Booked (history : List Event) (s : State) : Prop where
  calls_eq : s.counters.calls = history.countP (·.call.isGuarded)
  failedCalls_eq : s.counters.failedCalls = history.countP (·.fails)
  doubleReleases_eq : s.counters.doubleReleases = history.countP (·.releasesStale)
  handles_eq : s.counters.handlesIssued = s.counters.handlesReleased + s.handles.live
  live_eq : s.handles.live = {h : Handle | ∃ ref, s.handles.resolve h none = .ok ref}.ncard
  objects_eq : s.heap.created = s.heap.destroyed + s.heap.objects.countP (·.payload.isSome)

/-! ### One call -/

theorem State.perform_of_isGuarded {call : Call} (guarded : call.isGuarded) (s : State)
    (thread : Nat) :
    s.perform thread call = s.guarded thread ⟨call.sentinel, []⟩ call.body := by
  cases call with
  | lastErrorText | lastErrorCode | clearLastError => cases guarded
  | _ => rfl

namespace Event

/-- How a call ends that passes the guard. -/
theorem ends (e : Event) (guarded : e.call.isGuarded) :
    (∃ a t, e.before.countCall.run e.call.body = (.ok a, t) ∧ e.succeeds = true ∧
        e.answer = a ∧ e.after = t.setLastError e.thread {}) ∨
      ∃ failure t, e.before.countCall.run e.call.body = (.error failure, t) ∧ e.succeeds = false ∧
        e.answer = ⟨e.call.sentinel, []⟩ ∧ e.after = t.recordFailure e.thread failure := by
  simp only [succeeds, answer, after, State.perform_of_isGuarded guarded]
  rcases State.guarded_cases e.before e.thread ⟨e.call.sentinel, []⟩ e.call.body with
    ⟨a, t, hr, hg⟩ | ⟨failure, t, hr, hg⟩
  · exact .inl ⟨a, t, hr, by rw [hr]; rfl, by rw [hg], by rw [hg]⟩
  · exact .inr ⟨failure, t, hr, by rw [hr]; rfl, by rw [hg], by rw [hg]⟩

variable {e : Event}

/-- A call that passes the guard by enters nothing. -/
theorem entered_of_unguarded (unguarded : e.call.isGuarded = false) : e.Entered := by
  obtain ⟨s, thread, call⟩ := e
  cases call with
  | lastErrorText | lastErrorCode =>
    exact ⟨rfl, rfl, rfl, fun _ _ => rfl, fun balanced => balanced⟩
  | clearLastError =>
    exact ⟨rfl, rfl, rfl, fun _ hne => State.lastErrors_setLastError hne s {},
      fun balanced => ⟨balanced.table, balanced.issued_eq⟩⟩
  | _ => cases unguarded

/-- The guard adds nothing to what the call itself has entered but a failure. -/
theorem closes {t : State} (guarded : e.call.isGuarded)
    (left : (e.before.countCall.run e.call.body).2 = t) :
    e.after.counters.calls = t.counters.calls ∧
      e.after.counters.failedCalls = t.counters.failedCalls + (if e.fails then 1 else 0) ∧
      e.after.counters.doubleReleases = t.counters.doubleReleases ∧
      (∀ other ≠ e.thread, e.after.lastErrors other = t.lastErrors other) ∧
      (t.Balanced → e.after.Balanced) := by
  subst left
  rcases e.ends guarded with ⟨a, t, hr, done, -, after⟩ | ⟨failure, t, hr, failed, -, after⟩
  · rw [after, hr, fails, guarded, done]
    exact ⟨rfl, rfl, rfl, fun _ hne => State.lastErrors_setLastError hne _ _,
      fun balanced => ⟨balanced.table, balanced.issued_eq⟩⟩
  · rw [after, hr, fails, guarded, failed]
    exact ⟨rfl, rfl, rfl, fun _ hne => State.lastErrors_setLastError hne _ _,
      fun balanced => ⟨balanced.table, balanced.issued_eq⟩⟩

theorem entered (e : Event) (sound : e.before.Sound) : e.Entered := by
  cases guarded : e.call.isGuarded with
  | false => exact entered_of_unguarded guarded
  | true =>
    have posted := e.call.body_posted sound.countCall
    obtain ⟨calls, failedCalls, doubleReleases, others, closed⟩ := closes guarded rfl
    refine ⟨?_, ?_, ?_, fun other hne => ?_, fun balanced => closed (posted.balanced ?_)⟩
    · rw [calls, posted.calls_eq, guarded]
      rfl
    · rw [failedCalls, posted.failedCalls_eq]
      rfl
    · exact doubleReleases.trans posted.doubleReleases_eq
    · exact (others other hne).trans (congrFun posted.lastErrors_eq other)
    · exact ⟨balanced.table, balanced.issued_eq⟩

/-- What a thread has on record that has just made a call that failed. -/
theorem lastError_of_failure {t : State} {failure : Failure}
    (after : e.after = t.recordFailure e.thread failure) :
    e.lastError = .ofFault failure.toFault := by
  rw [lastError, after]
  exact State.lastErrors_setLastError_self _ _ _

/-- A success clears the record, and a failure leaves a code there. -/
theorem cleared_iff (guarded : e.call.isGuarded) :
    e.lastError.code.number = 0 ∧ e.lastError.message = "" ↔ e.succeeds := by
  rcases e.ends guarded with ⟨a, t, -, done, -, after⟩ | ⟨failure, t, -, failed, -, after⟩
  · have cleared : e.lastError = {} := by
      rw [lastError, after]
      exact State.lastErrors_setLastError_self _ _ _
    simp [cleared, done, ErrorCode.number]
  · rw [lastError_of_failure after, failed]
    simp [LastError.number_ofFault_ne_zero]

/-- How a call ends that fails. -/
theorem ends_of_fails (fails : e.fails) :
    e.answer = ⟨e.call.sentinel, []⟩ ∧ ∃ fault, e.lastError = .ofFault fault := by
  simp only [Event.fails, Bool.and_eq_true, Bool.not_eq_true'] at fails
  rcases e.ends fails.1 with ⟨a, t, -, done, -, -⟩ | ⟨failure, t, -, -, answer, after⟩
  · rw [fails.2] at done
    cases done
  · exact ⟨answer, failure.toFault, lastError_of_failure after⟩

theorem recorded (e : Event) (sound : e.before.Sound) : e.Recorded where
  cleared_iff := cleared_iff
  sentinel_of_fails fails := (ends_of_fails fails).1
  zero_of_succeeds guarded done := by
    rcases e.ends guarded with ⟨a, t, hr, -, answer, -⟩ | ⟨failure, t, -, failed, -, -⟩
    · rw [answer]
      exact (Call.body_replies guarded _).ok_of_run hr
    · rw [failed] at done
      cases done
  code_of_fails fails := by
    obtain ⟨-, fault, recorded⟩ := ends_of_fails fails
    rw [recorded]
    exact LastError.number_ofFault_ne_zero fault
  message_of_fails fails := by
    obtain ⟨-, fault, recorded⟩ := ends_of_fails fails
    obtain ⟨detail, message⟩ := LastError.ofFault_message fault
    rw [recorded]
    refine ⟨?_, LastError.nul_notMem_ofFault fault, detail, message⟩
    rw [message]
    simp
  others_eq := (e.entered sound).others_eq
  text_asked asked := by
    obtain ⟨s, thread, call⟩ := e
    cases asked
    exact ⟨rfl, rfl⟩
  code_asked asked := by
    obtain ⟨s, thread, call⟩ := e
    cases asked
    exact ⟨rfl, rfl⟩

end Event

/-! ### All calls -/

namespace Run

variable {history : List Event} {s : State}

theorem reachable (run : Run history s) : s.Reachable := by
  induction run with
  | start => exact .refl
  | call _ thread exported ih => exact ih.step (.call thread exported)
  | surroundings _ options files now ih => exact ih.step (.surroundings options files now)

theorem balanced (run : Run history s) : s.Balanced := by
  induction run with
  | start => exact ⟨HandleTable.wellFormed_empty, rfl⟩
  | @call _ s run thread call _ ih =>
    exact (Event.entered ⟨s, thread, call⟩ run.reachable.sound).balanced ih
  | surroundings _ options files now ih => exact ⟨ih.table, ih.issued_eq⟩

/-- Each counter is the number of calls that it counts. -/
theorem counters_eq (run : Run history s) :
    s.counters.calls = history.countP (·.call.isGuarded) ∧
      s.counters.failedCalls = history.countP (·.fails) ∧
      s.counters.doubleReleases = history.countP (·.releasesStale) := by
  induction run with
  | start => exact ⟨rfl, rfl, rfl⟩
  | @call history s run thread call _ ih =>
    obtain ⟨calls, failedCalls, doubleReleases⟩ := ih
    have entered := Event.entered ⟨s, thread, call⟩ run.reachable.sound
    simp only [List.countP_append, List.countP_singleton, ← calls, ← failedCalls, ← doubleReleases]
    exact ⟨entered.calls_eq, entered.failedCalls_eq, entered.doubleReleases_eq⟩
  | surroundings _ options files now ih => exact ih

theorem sound_of_mem (run : Run history s) {e : Event} (he : e ∈ history) : e.before.Sound := by
  induction run with
  | start => cases he
  | call run thread _ ih =>
    rcases List.mem_append.mp he with earlier | last
    · exact ih earlier
    · rw [List.mem_singleton.mp last]
      exact run.reachable.sound
  | surroundings _ options files now ih => exact ih he

/-- At the end of every run the counters agree with its calls and with what is there, and every call
of the run has told its outcome to its caller and to no one else. -/
theorem outcomes_agree (run : Run history s) :
    s.Booked history ∧ ∀ e ∈ history, e.Recorded := by
  have sound := run.reachable.sound
  obtain ⟨calls, failedCalls, doubleReleases⟩ := run.counters_eq
  have objects : s.heap.objects.length =
      s.heap.objects.countP (·.payload.isNone) + s.heap.objects.countP (·.payload.isSome) := by
    rw [List.length_eq_countP_add_countP (·.payload.isNone), Nat.add_left_cancel_iff]
    exact List.countP_congr fun o _ => by cases o.payload <;> simp
  refine ⟨⟨calls, failedCalls, doubleReleases, run.balanced.issued_eq,
    sound.table.ncard_resolving.symm, ?_⟩, fun e he => e.recorded (run.sound_of_mem he)⟩
  rw [sound.heap.created_eq, sound.heap.destroyed_eq, objects]

/-- A text that one thread has released is released once more by another one, which is told so. -/
theorem second_release_told :
    let text : Handle := ⟨0x100000001⟩
    let s := (State.perform {} 0 (.createText (.text "a"))).2
    let t := (s.perform 0 (.release text)).2
    let again : Event := ⟨t, 1, .releaseText text⟩
    let history : List Event := [⟨{}, 0, .createText (.text "a")⟩, ⟨s, 0, .release text⟩, again]
    Run history again.after ∧
      (again.fails ∧ again.releasesStale ∧ again.after.counters.doubleReleases = 1) ∧
      again.after.Booked history ∧ again.Recorded := by
  intro text s t again history
  have run : Run history again.after := by
    refine ((Run.start.call 0 ?_).call 0 ?_).call 1 ?_
    · exact .of_symbol "idlbridge_string_create" [.text (.text "a")] rfl
    · exact .of_symbol "idlbridge_release" [.handle text] rfl
    · exact .of_symbol "idlbridge_string_release" [.handle text] rfl
  obtain ⟨booked, recorded⟩ := outcomes_agree run
  exact ⟨run, by decide +kernel, booked, recorded again (by simp [history])⟩

end Run

end ObjectBoundary
