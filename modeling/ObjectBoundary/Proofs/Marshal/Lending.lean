import ObjectBoundary.Proofs.Handle.Lending
import ObjectBoundary.Proofs.Tasks.Members

/-!
# Values that go out

A value that goes out is lent to the caller, or the request is refused and leaves nothing behind. A
value of a declared type has the boundary kind of the type.
-/

namespace ObjectBoundary.Op

open State

variable {s : State}

theorem issueText_meets (sound : s.Sound) (text : String) :
    (issueText text).Meets s (fun h t => s.Lent (.handle h) t) s.Refused := by
  have admitted : Yields (Text.checkNul text) fun _ => True := by
    unfold Text.checkNul
    split
    · rfl
    · trivial
  refine (finds_check admitted).bind_refused sound fun content _ => ?_
  exact issueNew_meets sound rfl (fun r hr => by cases hr) (fun h => by cases h)

theorem issueCollection_meets (sound : s.Sound) {c : Collection} (carries : s.heap.Carries c.refs) :
    (issueCollection c).Meets s (fun h t => s.Lent (.handle h) t) s.Refused := by
  refine issueNew_meets sound ⟨rfl, fun r hr => (carries r hr).2⟩ (fun r hr => (carries r hr).1) ?_
  intro h
  cases hkind : c.kind <;> rw [hkind] at h <;> cases h

/-- A handle that was given out is the value that is lent. -/
theorem handle_meets {op : Op Handle} (h : op.Meets s (fun h t => s.Lent (.handle h) t) s.Refused) :
    (op >>= fun h => pure (Wire.handle h)).Meets s
      (fun w t => s.Lent w t ∧ w.kind? = some .handle) s.Refused :=
  h.bind fun _ _ lent => meets_pure ⟨lent, rfl⟩

theorem enumeratorOut_meets (sound : s.Sound) (id : EnumId) (n : Int64) :
    (enumeratorOut id n).Meets s
      (fun w t => s.Lent w t ∧ w.kind? = some (s.registry.kindOf (.enumeration id)))
      s.Refused := by
  refine meets_get ((finds_check (s.registry.checkEnumerator_yields id n)).bind_refused sound
    fun value _ => ?_)
  have hkind : s.registry.kindOf (.enumeration id) = .i32 ∨
      s.registry.kindOf (.enumeration id) = .i64 := by
    simp only [Registry.kindOf]
    split
    · split <;> simp
    · simp
  rcases hkind with hkind | hkind
  · rw [hkind]
    exact meets_pure ⟨.plain sound rfl, rfl⟩
  · rw [hkind]
    exact meets_pure ⟨.plain sound rfl, rfl⟩

theorem wrongResult_finds {α : Type} (found : String) (ty : Ty) :
    (wrongResult found ty : Op α).Finds s fun _ => False := finds_get (finds_fail rfl)

/-- An object of the declared interface is refused only for want of a handle. -/
theorem outbound_object_meets (sound : s.Sound) {ref : Ref} (holds : s.heap.Holds ref)
    {id : InterfaceId} (htag : ref.tag = .interface id) :
    (outbound (.object ref) (.interface id)).Meets s
      (fun w t => s.Lent w t ∧ w.kind? = some .handle)
      fun e t => s.Refused e t ∧ ∃ n, e = .fault (.handleLimit n) := by
  simp only [outbound, htag, ne_eq, not_true_eq_false, if_false]
  exact (issue_meets (.loosen sound _) holds).bind fun h t lent => meets_pure ⟨lent, rfl⟩

/-- A value of a declared type is lent as a value of the kind of the type. -/
theorem outbound_meets (sound : s.Sound) {value : Value} (carries : s.heap.Carries value.refs)
    (ty : Ty) : (outbound value ty).Meets s
      (fun w t => s.Lent w t ∧ w.kind? = some (s.registry.kindOf ty)) s.Refused := by
  have wrong : ∀ found, (wrongResult found ty : Op Wire).Meets s
      (fun w t => s.Lent w t ∧ w.kind? = some (s.registry.kindOf ty)) s.Refused :=
    fun found => meets_get (meets_fail (.refl sound rfl))
  have copied : (check (Collection.snapshot value ty) >>= fun c =>
      issueCollection c >>= fun h => pure (Wire.handle h)).Meets s
      (fun w t => s.Lent w t ∧ w.kind? = some .handle) s.Refused :=
    (finds_check (Collection.snapshot_yields value ty)).bind_refused sound fun c hsub =>
      handle_meets (issueCollection_meets sound (carries.subset hsub))
  cases ty with
  | void => exact meets_pure ⟨.plain sound rfl, rfl⟩
  | bool | i32 | i64 | f32 | f64 =>
    cases value
    all_goals first
      | exact wrong _
      | exact meets_pure ⟨.plain sound rfl, rfl⟩
  | string =>
    cases value with
    | str text => exact handle_meets (issueText_meets sound text)
    | _ => exact wrong _
  | enumeration id =>
    cases value
    all_goals first
      | exact wrong _
      | exact enumeratorOut_meets sound id _
  | interface id =>
    cases value with
    | object ref =>
      by_cases htag : ref.tag = .interface id
      · exact (outbound_object_meets sound (carries ref (by simp [Value.refs])).1 htag).imp
          (fun _ _ h => h) (fun _ _ h => h.1)
      · simp only [outbound, ne_eq, htag, not_false_eq_true, if_true]
        exact meets_get ((wrongResult_finds _ _).bind_refused sound fun _ h => h.elim)
    | _ => exact wrong _
  | array elem => exact copied
  | dict key elem => exact copied
  | set elem => exact copied

theorem outboundUntyped_meets (sound : s.Sound) {value : Value}
    (carries : s.heap.Carries value.refs) :
    (outboundUntyped value).Meets s s.Lent s.Refused := by
  have copied : (check (Collection.untypedSnapshot value) >>= fun c =>
      issueCollection c >>= fun h => pure (Wire.handle h)).Meets s s.Lent s.Refused :=
    (finds_check (Collection.untypedSnapshot_yields value)).bind_refused sound fun c hsub =>
      (handle_meets (issueCollection_meets sound (carries.subset hsub))).ok_imp fun _ _ h => h.1
  cases value with
  | str text =>
    exact (handle_meets (issueText_meets sound text)).ok_imp fun _ _ h => h.1
  | object ref =>
    have issued := issue_meets (.loosen sound _) (carries ref (by simp [Value.refs])).1
    exact (handle_meets (issued.imp (fun _ _ h => h) fun _ _ h => h.1)).ok_imp fun _ _ h => h.1
  | array items => exact copied
  | dict entries => exact copied
  | set items => exact copied
  | _ => exact meets_pure (.plain sound rfl)

theorem outboundAs_meets (sound : s.Sound) {value : Value} (carries : s.heap.Carries value.refs)
    (ty : Option Ty) : (outboundAs value ty).Meets s s.Lent s.Refused := by
  cases ty with
  | none => exact outboundUntyped_meets sound carries
  | some ty => exact (outbound_meets sound carries ty).ok_imp fun _ _ h => h.1

end ObjectBoundary.Op
