import ObjectBoundary.Dispatch
import ObjectBoundary.Entry.Enumeration
import ObjectBoundary.Proofs.Marshal.Refs

/-!
# Requests that only read

Resolving handles, looking into objects and taking values in leave the state alone. In a sound state
they never meet an object that is gone, and the values they give refer to objects that are there.
-/

namespace ObjectBoundary

/-- References to objects of interfaces that have not been destroyed. -/
def Heap.Carries (heap : Heap) (refs : List Ref) : Prop :=
  ∀ ref ∈ refs, heap.Holds ref ∧ ref.tag.isInterface

theorem Heap.Carries.subset {heap : Heap} {refs more : List Ref} (carries : heap.Carries more)
    (h : refs ⊆ more) : heap.Carries refs := fun ref hr => carries ref (h hr)

theorem Heap.carries_nil (heap : Heap) : heap.Carries [] := fun _ hr => by cases hr

theorem Heap.Carries.grown {before after : Heap} {refs : List Ref} (carries : before.Carries refs)
    (grown : Heap.Grown before after) : after.Carries refs :=
  fun ref hr => ⟨(carries ref hr).1.grown grown, (carries ref hr).2⟩

/-- What a collection that has not been destroyed refers to. -/
theorem State.SoundWith.carries {s : State} {made : List Nat} (sound : s.SoundWith made)
    {ref : Ref} {c : Collection} (has : s.heap.Has ref)
    (hc : s.heap.payloadAt ref.number = some (.collection c)) : s.heap.Carries c.refs := by
  have fits := sound.heap.fits_of_holds has hc
  exact fun r hr => ⟨sound.heap.holds_owned hc hr, fits.2 r hr⟩

namespace Op

variable {α β : Type} {s : State} {op : Op α} {wanted : α → Prop} {wanted' : β → Prop}

/-- A request leaves the state alone; what it gives is as wanted, and a fault speaks of no
object. -/
def Finds (op : Op α) (s : State) (wanted : α → Prop) : Prop :=
  op.Meets s (fun a t => t = s ∧ wanted a) fun e t => t = s ∧ e.toFault.namesObject = false

theorem finds_pure {a : α} (h : wanted a) : (pure a : Op α).Finds s wanted :=
  meets_pure ⟨rfl, h⟩

theorem finds_fail {fault : Fault} (h : fault.namesObject = false) :
    (fail fault : Op α).Finds s wanted := meets_fail ⟨rfl, h⟩

theorem finds_invalid (cause : BadArgument) : (invalid cause : Op α).Finds s wanted :=
  meets_invalid ⟨rfl, rfl⟩

theorem finds_get {next : State → Op β} (h : (next s).Finds s wanted') :
    (get >>= next).Finds s wanted' := meets_get h

theorem finds_check {x : Except Fault α} (h : Yields x wanted) : (check x).Finds s wanted := by
  cases x with
  | ok a => exact finds_pure h
  | error fault => exact finds_fail h

theorem finds_consent {x : Except Refusal α} (h : ∀ a, x = .ok a → wanted a) :
    (consent x).Finds s wanted := by
  cases x with
  | ok a => exact finds_pure (h a rfl)
  | error cause => exact finds_fail rfl

theorem Finds.imp {wanted' : α → Prop} (h : op.Finds s wanted) (hw : ∀ a, wanted a → wanted' a) :
    op.Finds s wanted' :=
  Meets.imp h (fun a _ ⟨ht, ha⟩ => ⟨ht, hw a ha⟩) fun _ _ he => he

theorem Finds.bind_meets {next : α → Op β} {ok : β → State → Prop}
    {bad : Failure → State → Prop} (h : op.Finds s wanted)
    (hbad : ∀ e, e.toFault.namesObject = false → bad e s)
    (hnext : ∀ a, wanted a → (next a).Meets s ok bad) : (op >>= next).Meets s ok bad := by
  have first : op.Meets s (fun a t => t = s ∧ wanted a) bad :=
    Meets.imp h (fun _ _ ha => ha) fun e t ⟨ht, he⟩ => ht ▸ hbad e he
  refine first.bind fun a t ⟨ht, ha⟩ => ?_
  subst ht
  exact hnext a ha

theorem Finds.bind {next : α → Op β} (h : op.Finds s wanted)
    (hnext : ∀ a, wanted a → (next a).Finds s wanted') : (op >>= next).Finds s wanted' :=
  h.bind_meets (fun _ he => ⟨rfl, he⟩) hnext

/-- A request that first reads is refused when the reading is. -/
theorem Finds.bind_refused {next : α → Op β} {ok : β → State → Prop} (sound : s.Sound)
    (h : op.Finds s wanted) (hnext : ∀ a, wanted a → (next a).Meets s ok s.Refused) :
    (op >>= next).Meets s ok s.Refused :=
  h.bind_meets (fun _ he => .refl sound he) hnext

/-! ### Objects behind handles -/

theorem resolve_finds (h : Handle) (expected : Option Tag) : (resolve h expected).Finds s
    fun ref => s.handles.bound? h = some ref ∧ ∀ tag, expected = some tag → ref.tag = tag := by
  unfold Finds Meets
  rw [State.run_resolve]
  cases hr : s.handles.resolve h expected with
  | ok ref => exact ⟨rfl, HandleTable.resolve_eq_ok_iff.mp hr⟩
  | error cause => exact ⟨rfl, by cases cause <;> rfl⟩

theorem resolve_holds (sound : s.Sound) (h : Handle) (expected : Option Tag) :
    (resolve h expected).Finds s fun ref =>
      s.heap.Holds ref ∧ ∀ tag, expected = some tag → ref.tag = tag :=
  (resolve_finds h expected).imp fun _ ⟨hb, htag⟩ => ⟨sound.holds_bound hb, htag⟩

theorem payload_finds {ref : Ref} (holds : s.heap.Holds ref) :
    (payload ref).Finds s fun p => s.heap.payloadAt ref.number = some p := by
  obtain ⟨p, hp⟩ := holds.payload
  unfold payload
  apply finds_get
  rw [Heap.payload?_eq_payloadAt, hp]
  exact finds_pure rfl

theorem textOf_finds {ref : Ref} (holds : s.heap.Holds ref) :
    (textOf ref).Finds s fun _ => True := by
  refine (payload_finds holds).bind fun p _ => ?_
  split
  · exact finds_pure trivial
  · exact finds_fail rfl

theorem readText_finds (sound : s.Sound) (h : Handle) : (readText h).Finds s fun _ => True :=
  (resolve_holds sound h _).bind fun _ ⟨holds, _⟩ => textOf_finds holds

theorem collection_finds (sound : s.Sound) (h : Handle) (kind : CollectionKind) :
    (collection h kind).Finds s fun found =>
      s.heap.Holds found.1 ∧ s.heap.payloadAt found.1.number = some (.collection found.2) := by
  refine (resolve_holds sound h _).bind fun ref ⟨holds, _⟩ => ?_
  refine (payload_finds holds).bind fun p hp => ?_
  split
  · exact finds_pure ⟨holds, hp⟩
  · exact finds_fail rfl

theorem target_finds (h : Handle) (id : InterfaceId) :
    (target h id).Finds s fun found =>
      s.handles.bound? h = some found.1 ∧ found.1.tag = .interface id ∧
        s.registry.interface? id = some found.2 := by
  refine (resolve_finds h _).bind fun ref ⟨hb, htag⟩ => finds_get ?_
  split
  · next d hd => exact finds_pure ⟨hb, htag _ rfl, hd⟩
  · exact finds_invalid _

theorem interfaceOf_finds (h : Handle) : (interfaceOf h).Finds s fun _ => True := by
  refine (resolve_finds h none).bind fun ref _ => ?_
  split
  · exact finds_pure trivial
  · exact finds_get (finds_fail rfl)

theorem declaredProperty_finds (d : InterfaceDescriptor) (name : String) :
    (declaredProperty d name).Finds s fun p => d.property? name = some p := by
  unfold declaredProperty
  split
  · next p hp => exact finds_pure hp
  · exact finds_invalid _

theorem declaredMethod_finds (d : InterfaceDescriptor) (name : String) :
    (declaredMethod d name).Finds s fun m => d.method? name = some m := by
  unfold declaredMethod
  split
  · next m hm => exact finds_pure hm
  · exact finds_invalid _

/-! ### Values that come in -/

theorem kindOf_finds (w : Wire) : (kindOf w).Finds s fun _ => True := by
  unfold kindOf
  split
  · exact finds_pure trivial
  · exact finds_invalid _

theorem contentOf_finds (sound : s.Sound) {ref : Ref} (holds : s.heap.Holds ref) :
    (contentOf ref).Finds s fun value => s.heap.Carries value.refs := by
  unfold contentOf
  split
  · next id htag =>
    refine finds_pure fun r hr => ?_
    rw [List.mem_singleton.mp hr, htag]
    exact ⟨holds, rfl⟩
  · exact (textOf_finds holds).bind fun _ _ => finds_pure (Heap.carries_nil _)
  -- The three kinds of collections are read alike.
  all_goals
    refine (payload_finds holds).bind fun p hp => ?_
    split
    · next c => exact finds_pure ((sound.carries holds.has hp).subset c.refs_toValue_subset)
    · exact finds_get (finds_fail rfl)

theorem typedContentOf_finds (sound : s.Sound) {ref : Ref} (holds : s.heap.Holds ref) (ty : Ty) :
    (typedContentOf ref ty).Finds s fun value => s.heap.Carries value.refs := by
  refine (contentOf_finds sound holds).bind fun value carries => ?_
  have converted : (get >>= fun s => check (s.registry.conform ty value) : Op Value).Finds s
      fun value => s.heap.Carries value.refs :=
    finds_get ((finds_check (s.registry.conform_yields ty value)).imp
      fun _ hsub => carries.subset hsub)
  split
  · exact converted
  · exact converted
  · exact converted
  · exact finds_pure carries
  · exact finds_pure carries

theorem inbound_finds (sound : s.Sound) (w : Wire) (ty : Ty) :
    (inbound w ty).Finds s fun value => s.heap.Carries value.refs := by
  refine (kindOf_finds w).bind fun kind _ => finds_get ?_
  have behind : (resolve w.handleBits ty.tag? >>= fun ref => typedContentOf ref ty).Finds s
      fun value => s.heap.Carries value.refs :=
    (resolve_holds sound _ _).bind fun ref ⟨holds, _⟩ => typedContentOf_finds sound holds ty
  by_cases hkind : kind = s.registry.kindOf ty
  · simp only [hkind, ne_eq, not_true_eq_false, if_false]
    cases ty with
    | enumeration id =>
      exact (finds_check (s.registry.checkEnumerator_yields id _)).bind fun _ _ =>
        finds_pure (Heap.carries_nil _)
    | string | interface id | array elem | dict key elem | set elem => exact behind
    | _ => exact finds_pure (Heap.carries_nil _)
  · simp only [ne_eq, hkind, not_false_eq_true, if_true]
    exact (finds_invalid _).bind fun _ h => h

theorem inboundUntyped_finds (sound : s.Sound) (w : Wire) :
    (inboundUntyped w).Finds s fun value => s.heap.Carries value.refs := by
  refine (kindOf_finds w).bind fun kind _ => ?_
  cases kind with
  | handle =>
    exact (resolve_holds sound _ _).bind fun ref ⟨holds, _⟩ => contentOf_finds sound holds
  | _ => exact finds_pure (Heap.carries_nil _)

theorem inboundKey_finds (sound : s.Sound) (w : Wire) :
    (inboundKey w).Finds s fun value => s.heap.Carries value.refs := by
  refine (inboundUntyped_finds sound w).bind fun key carries => ?_
  split
  · exact finds_pure carries
  · exact finds_pure carries
  · exact finds_pure carries
  · exact finds_invalid _

theorem inboundArguments_finds (sound : s.Sound) (ws : List Wire) (ps : List Parameter) :
    (inboundArguments ws ps).Finds s fun _ => True := by
  induction ws generalizing ps with
  | nil => exact finds_pure trivial
  | cons w ws ih =>
    cases ps with
    | nil => exact finds_pure trivial
    | cons p ps =>
      refine (inbound_finds sound w p.ty).bind fun value _ => ?_
      exact (ih ps).bind fun _ _ => finds_pure trivial

end Op

end ObjectBoundary
