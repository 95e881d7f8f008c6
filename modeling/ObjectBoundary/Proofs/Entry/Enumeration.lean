import ObjectBoundary.Proofs.Marshal.Lending

/-!
# Collections behind handles

Adding to a collection, reading from it and stepping through it keep a state sound, and what is
refused leaves nothing behind: a cursor step that cannot give out its value takes the key back.
-/

namespace ObjectBoundary.Op

open State

variable {s : State} {ref : Ref}

theorem replace_meets {p : Payload} {bad : Failure → State → Prop} (sound : s.Sound)
    (holds : s.heap.Holds ref) (fits : p.Fits ref.tag) (refs : ∀ r ∈ p.refs, s.heap.Holds r) :
    (replace ref p).Meets s (fun _ t => s.Advanced t) bad :=
  meets_of_run (run_replace s ref p) (Sound.advanced_withPayload sound holds fits refs)

/-- A collection takes in what is there. -/
theorem replace_collection_meets {c c' : Collection} {added : List Ref}
    {bad : Failure → State → Prop} (sound : s.Sound) (holds : s.heap.Holds ref)
    (hc : s.heap.payloadAt ref.number = some (.collection c)) (carries : s.heap.Carries added)
    (adds : c.Adds added c') :
    (replace ref (.collection c')).Meets s (fun _ t => s.Advanced t) bad := by
  have fits := sound.heap.fits_of_holds holds.has hc
  have old := sound.carries holds.has hc
  have all : s.heap.Carries c'.refs := by
    intro r hr
    rcases adds.2 r hr with hold | hadded
    · exact old r hold
    · exact carries r hadded
  exact replace_meets sound holds ⟨adds.1 ▸ fits.1, fun r hr => (all r hr).2⟩
    fun r hr => (all r hr).1

theorem pushItem_meets (sound : s.Sound) (h : Handle) (item : Wire) :
    (pushItem h item).Meets s (fun _ t => s.Advanced t) s.Refused := by
  refine (collection_finds sound h .array).bind_refused sound fun (ref, c) ⟨holds, hc⟩ => ?_
  refine (inboundUntyped_finds sound item).bind_refused sound fun value carries => ?_
  refine (finds_check (c.push_yields value)).bind_refused sound fun c' adds => ?_
  exact replace_collection_meets sound holds hc carries adds

theorem insertMember_meets (sound : s.Sound) (h : Handle) (item : Wire) :
    (insertMember h item).Meets s (fun _ t => s.Advanced t) s.Refused := by
  refine (collection_finds sound h .set).bind_refused sound fun (ref, c) ⟨holds, hc⟩ => ?_
  refine (inboundUntyped_finds sound item).bind_refused sound fun value carries => ?_
  refine (finds_check (c.insert_yields value)).bind_refused sound fun (isNew, c') adds => ?_
  exact (replace_collection_meets sound holds hc carries adds).bind fun _ t h => meets_pure h

theorem insertEntry_meets (sound : s.Sound) (h : Handle) (key item : Wire) :
    (insertEntry h key item).Meets s (fun _ t => s.Advanced t) s.Refused := by
  refine (collection_finds sound h .dict).bind_refused sound fun (ref, c) ⟨holds, hc⟩ => ?_
  refine (inboundKey_finds sound key).bind_refused sound fun k keyCarries => ?_
  refine (inboundUntyped_finds sound item).bind_refused sound fun value carries => ?_
  refine (finds_check (c.insertEntry_yields k value)).bind_refused sound fun (_, c') adds => ?_
  refine replace_collection_meets sound holds hc (fun r hr => ?_) adds
  rcases List.mem_append.mp hr with hr | hr
  · exact keyCarries r hr
  · exact carries r hr

theorem resetCursor_meets (sound : s.Sound) (h : Handle) (kind : CollectionKind) :
    (resetCursor h kind).Meets s (fun _ t => s.Advanced t) s.Refused := by
  refine (collection_finds sound h kind).bind_refused sound fun (ref, c) ⟨holds, hc⟩ => ?_
  have adds : c.Adds [] c.reset := ⟨rfl, fun r hr => .inl hr⟩
  exact replace_collection_meets sound holds hc (Heap.carries_nil _) adds

theorem countItems_finds (sound : s.Sound) (h : Handle) (kind : CollectionKind) :
    (countItems h kind).Finds s fun _ => True :=
  (collection_finds sound h kind).bind fun _ _ => finds_pure trivial

theorem newCollection_meets (sound : s.Sound) (kind : CollectionKind) :
    (newCollection kind).Meets s (fun h t => s.Lent (.handle h) t) s.Refused :=
  issueCollection_meets sound (Heap.carries_nil _)

theorem arrayItem_meets (sound : s.Sound) (h : Handle) (index : Nat) :
    (arrayItem h index).Meets s s.Lent s.Refused := by
  refine (collection_finds sound h .array).bind_refused sound fun (ref, c) ⟨holds, hc⟩ => ?_
  refine (finds_check (c.item_yields index)).bind_refused sound fun value hsub => ?_
  exact outboundAs_meets sound ((sound.carries holds.has hc).subset hsub) c.elemTy

/-- After values have been lent, a cursor moves on in the collection it belongs to. -/
theorem advance_meets {t : State} {c : Collection} {bad : Failure → State → Prop}
    (advanced : s.Advanced t) (grown : s.heap.Grown t.heap) (holds : s.heap.Holds ref)
    (hc : s.heap.payloadAt ref.number = some (.collection c)) :
    (replace ref (.collection c.advance)).Meets t (fun _ u => s.Advanced u) bad := by
  have hc' : t.heap.payloadAt ref.number = some (.collection c) :=
    (grown.payload ref.number holds.has.lt_length).trans hc
  have adds : c.Adds [] c.advance := ⟨rfl, fun r hr => .inl hr⟩
  exact (replace_collection_meets advanced.sound (holds.grown grown) hc' (Heap.carries_nil _)
    adds).ok_imp fun _ u h => advanced.trans h

theorem nextMember_meets (sound : s.Sound) (h : Handle) :
    (nextMember h).Meets s (fun _ t => s.Advanced t) s.Refused := by
  refine (collection_finds sound h .set).bind_refused sound fun (ref, c) ⟨holds, hc⟩ => ?_
  simp only
  cases hcurrent : c.current? with
  | none => exact meets_pure (.refl sound)
  | some entry =>
    have hentry : entry ∈ c.entries := List.mem_of_getElem? hcurrent
    have carries := (sound.carries holds.has hc).subset (Collection.refs_value_subset hentry)
    refine (outboundAs_meets sound carries c.elemTy).bind fun value t lent => ?_
    exact (advance_meets lent.advanced lent.grown holds hc).bind fun _ u h => meets_pure h

theorem nextEntry_meets (sound : s.Sound) (h : Handle) :
    (nextEntry h).Meets s (fun _ t => s.Advanced t) s.Refused := by
  refine (collection_finds sound h .dict).bind_refused sound fun (ref, c) ⟨holds, hc⟩ => ?_
  simp only
  cases hcurrent : c.current? with
  | none => exact meets_pure (.refl sound)
  | some entry =>
    have hentry : entry ∈ c.entries := List.mem_of_getElem? hcurrent
    have carries := sound.carries holds.has hc
    have keyCarries := carries.subset (Collection.refs_key_subset hentry)
    have valueCarries := carries.subset (Collection.refs_value_subset hentry)
    refine (outboundAs_meets sound keyCarries c.keyTy).bind fun key t lent => ?_
    have second := outboundAs_meets lent.sound (valueCarries.grown lent.grown) c.elemTy
    -- The key is taken back when the value cannot be given out.
    refine (second.tryCatch fun e u refused => ?_).bind fun value u lent' => ?_
    · exact ((discard_undoes lent refused).imp (fun _ _ h => h) (fun _ _ h => h.elim)).bind
        fun _ v refused => meets_throw refused
    · exact (advance_meets (lent.advanced.trans lent'.advanced) (lent.grown.trans lent'.grown)
        holds hc).bind fun _ v h => meets_pure h

end ObjectBoundary.Op
