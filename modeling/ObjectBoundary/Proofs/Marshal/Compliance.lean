import ObjectBoundary.Dispatch
import ObjectBoundary.Entry.Enumeration
import ObjectBoundary.Proofs.Object.Typing

/-!
# Requests on well-typed states

A value that comes in under a declared type has that type, and a value that has its declared type
can go out. So the faults that blame an implementation for a wrong type do not occur on the way, and
the copies that are made keep the heap well typed.
-/

namespace ObjectBoundary

namespace Fault

/-- An implementation was asked for something that it does not know, or gave something else than
was declared. -/
def isIllTyped : Fault → Bool
  | .domain cause =>
    match cause with
    | .expected _ _ | .missingArgument _ | .unknownMember _ _ | .notPriority _ | .notStatus _
    | .returned _ _ | .notCollectionType => true
    | _ => false
  | _ => false

/-- A request does not fit the declaration of its member. -/
def isMisfit : Fault → Bool
  | .invalidArgument cause =>
    match cause with
    | .unexpectedTag _ | .arity _ _ _ _ | .wrongKind _ _ _ | .noMember _ _ _ => true
    | _ => false
  | _ => false

/-- A fault that no wrong type is to blame for. Only a caller that names members and makes up
boundary values may be told that its request does not fit, not one whose types are fixed. -/
structure Fair (fixed : Bool) (fault : Fault) : Prop where
  typed : fault.isIllTyped = false
  fits : fixed = true → fault.isMisfit = false

end Fault

namespace State

def WellTyped (s : State) : Prop := s.heap.WellTyped s.registry

/-- Nothing more is registered, and a well-typed heap stays well typed. -/
structure KeepsTypes (s t : State) : Prop where
  registry_eq : t.registry = s.registry
  wellTyped : s.WellTyped → t.WellTyped

theorem KeepsTypes.refl (s : State) : s.KeepsTypes s := ⟨rfl, fun h => h⟩

theorem KeepsTypes.trans {s t u : State} (first : s.KeepsTypes t) (second : t.KeepsTypes u) :
    s.KeepsTypes u :=
  ⟨second.registry_eq.trans first.registry_eq, fun h => second.wellTyped (first.wellTyped h)⟩

/-- Only the heap matters, and only its payloads. -/
theorem keepsTypes_of_heap {s t : State} (registry_eq : t.registry = s.registry)
    (heap : s.heap.WellTyped s.registry → t.heap.WellTyped s.registry) : s.KeepsTypes t := by
  refine ⟨registry_eq, fun h => ?_⟩
  unfold WellTyped
  rw [registry_eq]
  exact heap h

end State

namespace Op

variable {α β : Type} {s t : State} {fixed : Bool}

/-- A request keeps types, gives what is wanted, and fails with fair faults only. -/
def Complies (fixed : Bool) (op : Op α) (s : State) (wanted : α → State → Prop) : Prop :=
  op.Meets s (fun a t => s.KeepsTypes t ∧ wanted a t)
    fun e t => s.KeepsTypes t ∧ e.toFault.Fair fixed

/-- A request that complies and leaves the state alone. -/
abbrev Consults (fixed : Bool) (op : Op α) (s : State) (wanted : α → Prop) : Prop :=
  op.Complies fixed s fun a t => t = s ∧ wanted a

variable {op : Op α} {wanted : α → State → Prop} {wanted' : β → State → Prop} {P : α → Prop}

theorem complies_pure {a : α} (h : wanted a s) : (pure a : Op α).Complies fixed s wanted :=
  meets_pure ⟨.refl s, h⟩

theorem consults_pure {a : α} (h : P a) : (pure a : Op α).Consults fixed s P :=
  complies_pure ⟨rfl, h⟩

theorem complies_fail {fault : Fault} (fair : fault.Fair fixed) :
    (fail fault : Op α).Complies fixed s wanted := meets_fail ⟨.refl s, fair⟩

theorem complies_get {next : State → Op β} (h : (next s).Complies fixed s wanted') :
    (get >>= next).Complies fixed s wanted' := meets_get h

theorem complies_of_run {a : α} (hr : s.run op = (.ok a, t)) (keeps : s.KeepsTypes t)
    (h : wanted a t) : op.Complies fixed s wanted := meets_of_run hr ⟨keeps, h⟩

theorem Complies.imp {other : α → State → Prop} (h : op.Complies fixed s wanted)
    (himp : ∀ a t, wanted a t → other a t) : op.Complies fixed s other :=
  Meets.imp h (fun a t ⟨keeps, ha⟩ => ⟨keeps, himp a t ha⟩) fun _ _ he => he

/-- Two things that are known of one request. -/
theorem Complies.and_meets {ok : α → State → Prop} {bad : Failure → State → Prop}
    (h : op.Complies fixed s wanted) (meets : op.Meets s ok bad) :
    op.Complies fixed s fun a t => wanted a t ∧ ok a t :=
  (Meets.and h meets).imp (fun _ _ ⟨⟨keeps, ha⟩, hm⟩ => ⟨keeps, ha, hm⟩) fun _ _ failed => failed.1

theorem Complies.bind {next : α → Op β} (h : op.Complies fixed s wanted)
    (hnext : ∀ a t, s.KeepsTypes t → wanted a t → (next a).Complies fixed t wanted') :
    (op >>= next).Complies fixed s wanted' := by
  refine Meets.bind h fun a t ⟨keeps, ha⟩ => ?_
  exact Meets.imp (hnext a t keeps ha) (fun b u ⟨keeps', hb⟩ => ⟨keeps.trans keeps', hb⟩)
    fun e u ⟨keeps', fair⟩ => ⟨keeps.trans keeps', fair⟩

theorem Consults.bind {next : α → Op β} (h : op.Consults fixed s P)
    (hnext : ∀ a, P a → (next a).Complies fixed s wanted') :
    (op >>= next).Complies fixed s wanted' := by
  refine Complies.bind h fun a t _ ⟨same, ha⟩ => ?_
  subst same
  exact hnext a ha

/-- A step of which the outcome is known. -/
theorem complies_run {a : α} {next : α → Op β} (hr : s.run op = (.ok a, t))
    (keeps : s.KeepsTypes t) (h : (next a).Complies fixed t wanted') :
    (op >>= next).Complies fixed s wanted' :=
  meets_run hr (Meets.imp h (fun _ _ ⟨keeps', hb⟩ => ⟨keeps.trans keeps', hb⟩)
    fun _ _ ⟨keeps', fair⟩ => ⟨keeps.trans keeps', fair⟩)

/-- Nothing comes after a failure. -/
theorem complies_fail_bind {fault : Fault} {next : α → Op β} (fair : fault.Fair fixed) :
    ((fail fault : Op α) >>= next).Complies fixed s wanted' :=
  meets_fail_bind ⟨.refl s, fair⟩

theorem consults_check {x : Except Fault α} (good : ∀ a, x = .ok a → P a)
    (fair : ∀ fault, x = .error fault → fault.Fair fixed) : (check x).Consults fixed s P := by
  cases x with
  | ok a => exact consults_pure (good a rfl)
  | error fault => exact complies_fail (fair fault rfl)

/-! ### Objects behind handles -/

theorem tableFault_fair (r : Registry) (cause : HandleError) : (tableFault r cause).Fair fixed := by
  cases cause <;> exact ⟨rfl, fun _ => rfl⟩

theorem resolve_consults (h : Handle) (expected : Option Tag) :
    (resolve h expected).Consults fixed s fun ref =>
      s.handles.bound? h = some ref ∧ ∀ tag, expected = some tag → ref.tag = tag := by
  refine complies_get ?_
  cases resolved : s.handles.resolve h expected with
  | ok ref => exact consults_pure (HandleTable.resolve_eq_ok_iff.mp resolved)
  | error cause => exact complies_fail (tableFault_fair _ cause)

theorem payload_consults (ref : Ref) :
    (payload ref).Consults fixed s fun p => s.heap.payloadAt ref.number = some p := by
  refine complies_get ?_
  rw [Heap.payload?_eq_payloadAt]
  cases s.heap.payloadAt ref.number with
  | some p => exact consults_pure rfl
  | none => exact complies_fail ⟨rfl, fun _ => rfl⟩

theorem textOf_consults (ref : Ref) : (textOf ref).Consults fixed s fun _ => True := by
  refine (payload_consults ref).bind fun p _ => ?_
  split
  · exact consults_pure trivial
  · exact complies_fail ⟨rfl, fun _ => rfl⟩

theorem readText_consults (h : Handle) : (readText h).Consults fixed s fun _ => True :=
  (resolve_consults h _).bind fun ref _ => textOf_consults ref

theorem collection_consults (h : Handle) (kind : CollectionKind) :
    (collection h kind).Consults fixed s fun found =>
      s.heap.payloadAt found.1.number = some (.collection found.2) := by
  refine (resolve_consults h _).bind fun ref _ => (payload_consults ref).bind fun p hp => ?_
  split
  · exact consults_pure hp
  · exact complies_fail ⟨rfl, fun _ => rfl⟩

theorem interfaceOf_consults (h : Handle) : (interfaceOf h).Consults fixed s fun _ => True := by
  refine (resolve_consults h none).bind fun ref _ => ?_
  split
  · exact consults_pure trivial
  · exact complies_get (complies_fail ⟨rfl, fun _ => rfl⟩)

theorem target_consults (h : Handle) (id : InterfaceId) :
    (target h id).Consults fixed s fun found => s.handles.bound? h = some found.1 ∧
      found.1.tag = .interface id ∧ s.registry.interface? id = some found.2 := by
  refine (resolve_consults h _).bind fun ref ⟨hb, htag⟩ => complies_get ?_
  split
  · next d hd => exact consults_pure ⟨hb, htag _ rfl, hd⟩
  · exact complies_fail ⟨rfl, fun _ => rfl⟩

/-! ### Values that come in -/

end Op

section Errors

variable {ε α β : Type} {x : Except ε α} {e : ε}

theorem bind_eq_error {f : α → Except ε β} (h : x >>= f = .error e) :
    x = .error e ∨ ∃ a, x = .ok a ∧ f a = .error e := by
  cases x with
  | error e' =>
    cases h
    exact .inl rfl
  | ok a => exact .inr ⟨a, rfl, h⟩

theorem map_eq_error {f : α → β} (h : x.map f = .error e) : x = .error e := by
  cases x with
  | error e' =>
    cases h
    rfl
  | ok a => cases h

/-- A list fails as its first item that fails. -/
theorem exists_of_mapM_error {f : α → Except ε β} {items : List α}
    (h : items.mapM f = .error e) : ∃ item ∈ items, f item = .error e := by
  induction items with
  | nil => cases h
  | cons item items ih =>
    rw [List.mapM_cons] at h
    rcases bind_eq_error h with failed | ⟨_, _, h⟩
    · exact ⟨item, by simp, failed⟩
    · rcases bind_eq_error h with failed | ⟨_, _, h⟩
      · obtain ⟨other, member, failed⟩ := ih failed
        exact ⟨other, by simp [member], failed⟩
      · cases h

end Errors

namespace Registry

variable {r : Registry} {fixed : Bool}

theorem checkEnumerator_fair {id : EnumId} {n : Int64} {fault : Fault}
    (h : r.checkEnumerator id n = .error fault) : fault.Fair fixed := by
  unfold checkEnumerator at h
  split at h
  · cases h
    exact ⟨rfl, fun _ => rfl⟩
  · split at h
    · cases h
    · cases h
      exact ⟨rfl, fun _ => rfl⟩

theorem typeMismatch_fair {α : Type} {expected found : String} {fault : Fault}
    (h : (.error (.typeMismatch expected found) : Except Fault α) = .error fault) :
    fault.Fair fixed := by
  cases h
  exact ⟨rfl, fun _ => rfl⟩

/-- A value that cannot be converted is the caller's. -/
theorem conform_fair {ty : Ty} {value : Value} {fault : Fault}
    (h : r.conform ty value = .error fault) : fault.Fair fixed := by
  induction ty generalizing value with
  | void => cases h
  | bool | i64 | f32 | f64 | string =>
    cases value <;> first | exact typeMismatch_fair h | cases h
  | i32 =>
    cases value with
    | i64 n =>
      simp only [conform] at h
      split at h
      · cases h
      · exact typeMismatch_fair h
    | i32 n => cases h
    | _ => exact typeMismatch_fair h
  | enumeration id =>
    cases value with
    | i32 n | i64 n | enumerator n => exact checkEnumerator_fair (map_eq_error h)
    | _ => exact typeMismatch_fair h
  | interface id =>
    cases value with
    | object ref =>
      simp only [conform] at h
      split at h
      · cases h
      · exact typeMismatch_fair h
    | _ => exact typeMismatch_fair h
  | array elem ih =>
    cases value with
    | array items =>
      obtain ⟨item, _, failed⟩ := exists_of_mapM_error (map_eq_error h)
      exact ih failed
    | _ => exact typeMismatch_fair h
  | set elem ih =>
    cases value with
    | set items =>
      obtain ⟨item, _, failed⟩ := exists_of_mapM_error (map_eq_error h)
      exact ih failed
    | _ => exact typeMismatch_fair h
  | dict key elem ihKey ihElem =>
    cases value with
    | dict entries =>
      obtain ⟨⟨k, v⟩, _, failed⟩ := exists_of_mapM_error (map_eq_error h)
      rcases bind_eq_error failed with failed | ⟨_, _, failed⟩
      · exact ihKey failed
      · rcases bind_eq_error failed with failed | ⟨_, _, failed⟩
        · exact ihElem failed
        · cases failed
    | _ => exact typeMismatch_fair h

end Registry

namespace Op

variable {α : Type} {s : State} {fixed : Bool} {ty : Ty} {value : Value} {ref : Ref}

theorem kindOf_consults (w : Wire) :
    (kindOf w).Consults fixed s fun kind => w.kind? = some kind := by
  unfold kindOf
  split
  · next kind hk => exact consults_pure hk
  · exact complies_fail ⟨rfl, fun _ => rfl⟩

theorem contentOf_consults (ref : Ref) :
    (contentOf ref).Consults fixed s fun value =>
      (∀ id, ref.tag = .interface id → value = .object ref) ∧
        (ref.tag = .string → ∃ text, value = .str text) := by
  unfold contentOf
  split
  · next id htag => exact consults_pure ⟨fun _ _ => rfl, fun h => by simp [htag] at h⟩
  · next htag =>
    refine (textOf_consults ref).bind fun text _ => ?_
    exact consults_pure ⟨fun id h => by simp [htag] at h, fun _ => ⟨text, rfl⟩⟩
  -- The three kinds of collections are read alike.
  all_goals
    next htag =>
    refine (payload_consults ref).bind fun p _ => ?_
    split
    · exact consults_pure ⟨fun id h => by simp [htag] at h, fun h => by simp [htag] at h⟩
    · exact complies_get (complies_fail ⟨rfl, fun _ => rfl⟩)

theorem conform_consults (ty : Ty) (value : Value) :
    (get >>= fun s => check (s.registry.conform ty value) : Op Value).Consults fixed s
      (s.registry.HasType ty) :=
  complies_get (consults_check (fun _ h => Registry.hasType_of_conform h)
    fun _ h => Registry.conform_fair h)

theorem typedContentOf_consults (tag_eq : ty.tag? = some ref.tag) :
    (typedContentOf ref ty).Consults fixed s (s.registry.HasType ty) := by
  refine (contentOf_consults ref).bind fun value ⟨object, text⟩ => ?_
  split
  · exact conform_consults ty value
  · exact conform_consults ty value
  · exact conform_consults ty value
  · next id htag =>
    obtain rfl : ty = .interface id := by
      rw [htag] at tag_eq
      cases ty <;> cases tag_eq
      rfl
    rw [object id htag]
    exact consults_pure (.object htag)
  · next htag =>
    obtain rfl : ty = .string := by
      rw [htag] at tag_eq
      cases ty <;> cases tag_eq
      rfl
    obtain ⟨content, rfl⟩ := text htag
    exact consults_pure (.str content)

/-- A value that comes in under a declared type has that type. -/
theorem inbound_consults (w : Wire) (ty : Ty)
    (right : fixed = true → w.kind? = some (s.registry.kindOf ty)) :
    (inbound w ty).Consults fixed s (s.registry.HasType ty) := by
  refine (kindOf_consults w).bind fun kind hk => complies_get ?_
  have behind : ∀ tag, ty.tag? = some tag →
      (resolve w.handleBits ty.tag? >>= fun ref => typedContentOf ref ty).Consults fixed s
        (s.registry.HasType ty) := by
    intro tag expected
    refine (resolve_consults _ _).bind fun ref ⟨_, htag⟩ => ?_
    exact typedContentOf_consults (htag tag expected ▸ expected)
  by_cases hkind : kind = s.registry.kindOf ty
  · simp only [hkind, ne_eq, not_true_eq_false, if_false]
    cases ty with
    | void => exact consults_pure .void
    | bool => exact consults_pure (.bool _)
    | i32 => exact consults_pure (.i32 _)
    | i64 => exact consults_pure (.i64 _)
    | f32 => exact consults_pure (.f32 _)
    | f64 => exact consults_pure (.f64 _)
    | enumeration id =>
      refine Consults.bind (consults_check (fun _ h => h)
        fun _ h => Registry.checkEnumerator_fair h) fun n checked => ?_
      obtain ⟨rfl, d, found, declared⟩ := Registry.checkEnumerator_eq_ok_iff.mp checked
      exact consults_pure (.enumerator found declared)
    | string | interface id | array elem | dict key elem | set elem => exact behind _ rfl
  · simp only [ne_eq, hkind, not_false_eq_true, if_true]
    refine complies_fail_bind ⟨rfl, fun isFixed => ?_⟩
    rw [right isFixed] at hk
    exact absurd (Option.some.inj hk).symm hkind

theorem inboundUntyped_consults (w : Wire) :
    (inboundUntyped w).Consults fixed s fun _ => True := by
  refine (kindOf_consults w).bind fun kind _ => ?_
  cases kind with
  | handle =>
    refine (resolve_consults _ _).bind fun ref _ => ?_
    exact (contentOf_consults ref).imp fun _ _ ⟨same, _⟩ => ⟨same, trivial⟩
  | _ => exact consults_pure trivial

theorem inboundKey_consults (w : Wire) :
    (inboundKey w).Consults fixed s fun key => key.isGivenKey := by
  refine (inboundUntyped_consults w).bind fun key _ => ?_
  split
  · exact consults_pure rfl
  · exact consults_pure rfl
  · exact consults_pure rfl
  · exact complies_fail ⟨rfl, fun _ => rfl⟩

/-- Arguments that come in have the types of their parameters, one by one. -/
theorem inboundArguments_consults {ws : List Wire} {ps : List Parameter}
    (length_eq : ws.length = ps.length)
    (right : fixed = true → ws.map Wire.kind? = ps.map fun p => some (s.registry.kindOf p.ty)) :
    (inboundArguments ws ps).Consults fixed s
      (List.Forall₂ (fun p value => s.registry.HasType p.ty value) ps) := by
  induction ws generalizing ps with
  | nil =>
    rw [List.length_eq_zero_iff.mp length_eq.symm]
    exact consults_pure .nil
  | cons w ws ih =>
    cases ps with
    | nil => cases length_eq
    | cons p ps =>
      simp only [List.map_cons, List.cons.injEq] at right
      refine (inbound_consults w p.ty fun h => (right h).1).bind fun value typed => ?_
      have rest := ih (Nat.succ.inj length_eq) fun h => (right h).2
      exact rest.bind fun values all => consults_pure (.cons typed all)

/-! ### Objects that are made and given out -/

theorem create_complies {p : Payload} (tag : Tag) (typed : p.WellTyped s.registry) :
    (create tag p).Complies fixed s fun ref _ => ref.tag = tag :=
  complies_of_run (State.run_create s tag p)
    (State.keepsTypes_of_heap rfl fun h => h.create tag typed) rfl

theorem replace_complies {p : Payload} (ref : Ref) (typed : p.WellTyped s.registry) :
    (replace ref p).Complies fixed s fun _ _ => True :=
  complies_of_run (State.run_replace s ref p)
    (State.keepsTypes_of_heap rfl fun h => h.replace ref typed) trivial

theorem issue_complies (ref : Ref) : (issue ref).Complies fixed s fun _ _ => True := by
  unfold Complies Meets
  rw [State.run_issue]
  cases s.handles.issue s.options.maxLiveHandles ref with
  | ok given =>
    refine ⟨State.keepsTypes_of_heap rfl fun h => ?_, trivial⟩
    exact h.kept (Heap.Grown.retain s.heap ref).kept (Heap.length_retainAll s.heap [ref])
  | error cause =>
    refine ⟨State.keepsTypes_of_heap rfl fun h => ?_, tableFault_fair _ cause⟩
    exact h.kept (Heap.Kept.collect s.heap ref) (Heap.length_collect s.heap ref)

theorem release_complies (h : Handle) (expected : Option Tag) :
    (release h expected).Complies fixed s fun _ _ => True := by
  unfold Complies Meets
  rw [State.run_release]
  cases s.handles.release h expected with
  | ok given =>
    refine ⟨State.keepsTypes_of_heap rfl fun h => ?_, trivial⟩
    exact h.kept (Heap.Kept.releaseAll s.heap [given.1]) (Heap.length_releaseAll s.heap [given.1])
  | error cause =>
    have keeps : s.KeepsTypes (s.noticed cause) := by
      cases cause <;> exact State.keepsTypes_of_heap rfl fun h => h
    exact ⟨keeps, tableFault_fair _ cause⟩

theorem issueNew_complies {p : Payload} (tag : Tag) (typed : p.WellTyped s.registry) :
    (issueNew tag p).Complies fixed s fun _ _ => True :=
  (create_complies tag typed).bind fun ref _ _ _ => issue_complies ref

theorem issueText_complies (text : String) :
    (issueText text).Complies fixed s fun _ _ => True := by
  have admitted : (check (Text.checkNul text)).Consults fixed s fun _ => True := by
    refine consults_check (fun _ _ => trivial) fun fault h => ?_
    unfold Text.checkNul at h
    split at h
    · cases h
      exact ⟨rfl, fun _ => rfl⟩
    · cases h
  exact admitted.bind fun content _ => issueNew_complies .string trivial

theorem issueCollection_complies {c : Collection} (typed : c.WellTyped s.registry) :
    (issueCollection c).Complies fixed s fun _ _ => True :=
  issueNew_complies c.kind.tag typed

theorem handle_complies {op : Op Handle} (h : op.Complies fixed s fun _ _ => True) :
    (op >>= fun h => pure (Wire.handle h)).Complies fixed s fun _ _ => True :=
  h.bind fun _ _ _ _ => complies_pure trivial

/-! ### Values that go out -/

theorem enumeratorOut_complies (id : EnumId) (n : Int64) :
    (enumeratorOut id n).Complies fixed s fun _ _ => True := by
  refine complies_get (Consults.bind (consults_check (fun _ h => h)
    fun _ h => Registry.checkEnumerator_fair h) fun m _ => ?_)
  split
  · exact complies_pure trivial
  · exact complies_pure trivial

/-- A value of the declared type can go out. -/
theorem outbound_complies (typed : s.registry.HasType ty value) :
    (outbound value ty).Complies fixed s fun _ _ => True := by
  have copied : (Collection.declared? ty).isSome →
      (check (Collection.snapshot value ty) >>= fun c =>
        issueCollection c >>= fun h => pure (Wire.handle h)).Complies fixed s fun _ _ => True := by
    intro collection
    obtain ⟨c, snapshot_eq, hc⟩ := Collection.snapshot_wellTyped collection typed
    rw [snapshot_eq]
    exact Consults.bind (consults_pure rfl) fun c' (same : c = c') =>
      handle_complies (issueCollection_complies (same ▸ hc))
  cases typed with
  | void | bool | i32 | i64 | f32 | f64 => exact complies_pure trivial
  | str text => exact handle_complies (issueText_complies text)
  | enumerator => exact enumeratorOut_complies _ _
  | object tag_eq =>
    simp only [outbound, tag_eq, ne_eq, not_true_eq_false, if_false]
    exact handle_complies (issue_complies _)
  | array | set | dict => exact copied rfl

theorem outboundUntyped_complies (value : Value) :
    (outboundUntyped value).Complies fixed s fun _ _ => True := by
  have copied : (check (Collection.untypedSnapshot value) >>= fun c =>
      issueCollection c >>= fun h => pure (Wire.handle h)).Complies fixed s fun _ _ => True := by
    refine Consults.bind (P := fun c => Collection.untypedSnapshot value = .ok c)
      (consults_check (fun _ h => h) fun fault h => ?_) fun c h =>
        handle_complies (issueCollection_complies (Collection.untypedSnapshot_wellTyped h))
    unfold Collection.untypedSnapshot at h
    split at h
    · cases h
      exact ⟨rfl, fun _ => rfl⟩
    · cases h
  cases value with
  | str text => exact handle_complies (issueText_complies text)
  | object ref => exact handle_complies (issue_complies ref)
  | array | dict | set => exact copied
  | _ => exact complies_pure trivial

theorem outboundAs_complies {declared : Option Ty}
    (typed : ∀ ty, declared = some ty → s.registry.HasType ty value) :
    (outboundAs value declared).Complies fixed s fun _ _ => True := by
  cases declared with
  | none => exact outboundUntyped_complies value
  | some ty => exact outbound_complies (typed ty rfl)

end Op

end ObjectBoundary
