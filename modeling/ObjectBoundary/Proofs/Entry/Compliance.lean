import ObjectBoundary.Proofs.Reachable
import ObjectBoundary.Proofs.Tasks.Compliance

/-!
# Requests of the right types

No exported call makes an implementation see a value of another type than declared, and none is told
that an implementation gave one. The entry points with fixed types fit the declarations of their
members: a caller of these is never told that a request does not fit.
-/

namespace ObjectBoundary

open Op State

variable {s t : State} {fixed : Bool}

/-! ### Collections -/

namespace Collection

/-- Adding fails only because the collection cannot be added to. -/
theorem adding_fair {α : Type} {c : Collection} {kind : CollectionKind} {result : α}
    {fault : Fault} (h : (c.checkWritable kind >>= fun _ => pure result) = .error fault) :
    fault.Fair fixed := by
  rcases bind_eq_error h with h | ⟨_, _, h⟩
  · unfold checkWritable at h
    split at h
    · cases h
      exact ⟨rfl, fun _ => rfl⟩
    · split at h
      · cases h
        exact ⟨rfl, fun _ => rfl⟩
      · cases h
  · cases h

end Collection

namespace Op

variable {α β : Type}

theorem complies_throw {e : Failure} {wanted : α → State → Prop} (fair : e.toFault.Fair fixed) :
    (throw e : Op α).Complies fixed s wanted := meets_throw ⟨.refl s, fair⟩

theorem Complies.tryCatch {op : Op α} {handler : Failure → Op α} {wanted : α → State → Prop}
    (h : op.Complies fixed s wanted)
    (hnext : ∀ e t, s.KeepsTypes t → e.toFault.Fair fixed →
      (handler e).Complies fixed t wanted) : (tryCatch op handler).Complies fixed s wanted := by
  refine Meets.tryCatch h fun e t ⟨keeps, fair⟩ => ?_
  exact Meets.imp (hnext e t keeps fair) (fun _ _ ⟨keeps', ha⟩ => ⟨keeps.trans keeps', ha⟩)
    fun _ _ ⟨keeps', fair'⟩ => ⟨keeps.trans keeps', fair'⟩

theorem discard_complies (w : Wire) : (discard w).Complies fixed s fun _ _ => True := by
  unfold discard
  split
  · refine Complies.tryCatch ?_ fun e t _ _ => complies_pure trivial
    exact (release_complies _ _).bind fun _ _ _ _ => complies_pure trivial
  · exact complies_pure trivial

/-- The collection behind a handle, which is well typed. -/
theorem typed_collection_consults (typed : s.WellTyped) (h : Handle) (kind : CollectionKind) :
    (collection h kind).Consults fixed s fun found => found.2.WellTyped s.registry :=
  (collection_consults h kind).imp fun _ _ ⟨same, hc⟩ => ⟨same, typed _ _ hc⟩

theorem duplicate_complies (h : Handle) (expected : Option Tag) :
    (duplicate h expected).Complies fixed s fun _ _ => True :=
  (resolve_consults h expected).bind fun ref _ => issue_complies ref

theorem refcount_complies (h : Handle) (expected : Option Tag) :
    (refcount h expected).Complies fixed s fun _ _ => True :=
  (resolve_consults h expected).bind fun _ _ => complies_get (complies_pure trivial)

theorem newCollection_complies (kind : CollectionKind) :
    (newCollection kind).Complies fixed s fun _ _ => True :=
  issueCollection_complies (Collection.wellTyped_untyped rfl rfl fun _ _ => Collection.keyed_nil)

theorem countItems_complies (h : Handle) (kind : CollectionKind) :
    (countItems h kind).Complies fixed s fun _ _ => True :=
  (collection_consults h kind).bind fun _ _ => complies_pure trivial

theorem pushItem_complies (typed : s.WellTyped) (h : Handle) (item : Wire) :
    (pushItem h item).Complies fixed s fun _ _ => True := by
  refine (typed_collection_consults typed h .array).bind fun (ref, c) hc => ?_
  refine (inboundUntyped_consults item).bind fun value _ => ?_
  have pushed : (check (c.push value)).Consults fixed s fun c' => c'.WellTyped s.registry :=
    consults_check (fun _ => hc.push) fun _ h => Collection.adding_fair h
  exact pushed.bind fun c' hc' => replace_complies ref hc'

theorem insertMember_complies (typed : s.WellTyped) (h : Handle) (item : Wire) :
    (insertMember h item).Complies fixed s fun _ _ => True := by
  refine (typed_collection_consults typed h .set).bind fun (ref, c) hc => ?_
  refine (inboundUntyped_consults item).bind fun value _ => ?_
  have inserted : (check (c.insert value)).Consults fixed s
      fun found => found.2.WellTyped s.registry :=
    consults_check (fun _ => hc.insert) fun _ h => Collection.adding_fair h
  refine inserted.bind fun (isNew, c') hc' => ?_
  exact (replace_complies ref (by exact hc')).bind fun _ _ _ _ => complies_pure trivial

theorem insertEntry_complies (typed : s.WellTyped) (h : Handle) (key item : Wire) :
    (insertEntry h key item).Complies fixed s fun _ _ => True := by
  refine (typed_collection_consults typed h .dict).bind fun (ref, c) hc => ?_
  refine (inboundKey_consults key).bind fun k given => ?_
  refine (inboundUntyped_consults item).bind fun value _ => ?_
  have inserted : (check (c.insertEntry k value)).Consults fixed s
      fun found => found.2.WellTyped s.registry :=
    consults_check (fun _ => hc.insertEntry given) fun _ h => Collection.adding_fair h
  exact inserted.bind fun (_, c') hc' => replace_complies ref hc'

theorem resetCursor_complies (typed : s.WellTyped) (h : Handle) (kind : CollectionKind) :
    (resetCursor h kind).Complies fixed s fun _ _ => True :=
  (typed_collection_consults typed h kind).bind fun (ref, _) hc => replace_complies ref hc.reset

theorem arrayItem_complies (typed : s.WellTyped) (h : Handle) (index : Nat) :
    (arrayItem h index).Complies fixed s fun _ _ => True := by
  refine (typed_collection_consults typed h .array).bind fun (ref, c) hc => ?_
  have found : (check (c.item index)).Consults fixed s
      fun value => ∀ ty, c.elemTy = some ty → s.registry.HasType ty value := by
    unfold Collection.item
    split
    · next entry at_index =>
      exact consults_pure fun ty declared =>
        hc.values ty declared entry (List.mem_of_getElem? at_index)
    · exact complies_fail ⟨rfl, fun _ => rfl⟩
  exact found.bind fun value typed => outboundAs_complies typed

theorem nextMember_complies (typed : s.WellTyped) (h : Handle) :
    (nextMember h).Complies fixed s fun _ _ => True := by
  refine (typed_collection_consults typed h .set).bind fun (ref, c) hc => ?_
  simp only
  cases hcurrent : c.current? with
  | none => exact complies_pure trivial
  | some entry =>
    have member : entry ∈ c.entries := List.mem_of_getElem? hcurrent
    have value := fun ty declared => hc.values ty declared entry member
    refine (outboundAs_complies value).bind fun w t keeps _ => ?_
    refine (replace_complies ref (keeps.registry_eq ▸ hc.advance)).bind fun _ _ _ _ => ?_
    exact complies_pure trivial

theorem nextEntry_complies (typed : s.WellTyped) (h : Handle) :
    (nextEntry h).Complies fixed s fun _ _ => True := by
  refine (typed_collection_consults typed h .dict).bind fun (ref, c) hc => ?_
  simp only
  cases hcurrent : c.current? with
  | none => exact complies_pure trivial
  | some entry =>
    have member : entry ∈ c.entries := List.mem_of_getElem? hcurrent
    have key := fun ty declared => hc.keys ty declared entry member
    have value := fun ty declared => hc.values ty declared entry member
    refine (outboundAs_complies key).bind fun k t first _ => ?_
    have second : (outboundAs entry.value c.elemTy).Complies fixed t fun _ _ => True :=
      outboundAs_complies (first.registry_eq ▸ value)
    refine (second.tryCatch fun e u _ fair => ?_).bind fun w u keeps _ => ?_
    · exact (discard_complies k).bind fun _ _ _ _ => complies_throw fair
    · have same : u.registry = s.registry := keeps.registry_eq.trans first.registry_eq
      refine (replace_complies ref (same ▸ hc.advance)).bind fun _ _ _ _ => ?_
      exact complies_pure trivial

/-! ### Members of objects -/

variable {h : Handle} {id : InterfaceId} {name : String}

theorem declaredProperty_consults {d : InterfaceDescriptor}
    (right : fixed = true → ∃ p, d.property? name = some p) :
    (declaredProperty d name).Consults fixed s fun p => d.property? name = some p := by
  unfold declaredProperty
  split
  · next p declared => exact consults_pure declared
  · next undeclared =>
    refine complies_fail ⟨rfl, fun isFixed => ?_⟩
    obtain ⟨p, declared⟩ := right isFixed
    cases undeclared.symm.trans declared

theorem declaredMethod_consults {d : InterfaceDescriptor}
    (right : fixed = true → ∃ m, d.method? name = some m) :
    (declaredMethod d name).Consults fixed s fun m => d.method? name = some m := by
  unfold declaredMethod
  split
  · next m declared => exact consults_pure declared
  · next undeclared =>
    refine complies_fail ⟨rfl, fun isFixed => ?_⟩
    obtain ⟨m, declared⟩ := right isFixed
    cases undeclared.symm.trans declared

theorem getProperty_complies (sound : s.Sound)
    (right : fixed = true → ∀ d, s.registry.interface? id = some d →
      ∃ p, d.property? name = some p) :
    (getProperty h id name).Complies fixed s fun _ _ => True := by
  refine (target_consults h id).bind fun (ref, d) ⟨hb, htag, hd⟩ => ?_
  refine (declaredProperty_consults fun isFixed => right isFixed d hd).bind fun p declared => ?_
  refine (readProperty_complies sound hb htag hd declared).bind fun value typed => ?_
  exact outbound_complies typed

theorem setProperty_complies (sound : s.Sound) {w : Wire}
    (right : fixed = true → ∀ d, s.registry.interface? id = some d →
      ∃ p, d.property? name = some p ∧ w.kind? = some (s.registry.kindOf p.ty)) :
    (setProperty h id name w).Complies fixed s fun _ _ => True := by
  refine (target_consults h id).bind fun (ref, d) ⟨hb, htag, hd⟩ => ?_
  refine (declaredProperty_consults fun isFixed => ?_).bind fun p declared => ?_
  · obtain ⟨p, declared, _⟩ := right isFixed d hd
    exact ⟨p, declared⟩
  · have kind : fixed = true → w.kind? = some (s.registry.kindOf p.ty) := by
      intro isFixed
      obtain ⟨q, hq, kind⟩ := right isFixed d hd
      cases declared.symm.trans hq
      exact kind
    simp only
    split
    · exact complies_fail_bind ⟨rfl, fun _ => rfl⟩
    · next writable =>
      refine (inbound_consults w p.ty kind).bind fun value typed => ?_
      exact writeProperty_complies sound hb htag hd declared (by simpa using writable) typed

theorem invoke_complies (sound : s.Sound) {ws : List Wire}
    (right : fixed = true → ∀ d, s.registry.interface? id = some d →
      ∃ m, d.method? name = some m ∧
        ws.map Wire.kind? = m.parameters.map fun p => some (s.registry.kindOf p.ty)) :
    (invoke h id name ws).Complies fixed s fun _ _ => True := by
  refine (target_consults h id).bind fun (ref, d) ⟨hb, htag, hd⟩ => ?_
  refine (declaredMethod_consults fun isFixed => ?_).bind fun m declared => ?_
  · obtain ⟨m, declared, _⟩ := right isFixed d hd
    exact ⟨m, declared⟩
  · have kinds : fixed = true →
        ws.map Wire.kind? = m.parameters.map fun p => some (s.registry.kindOf p.ty) := by
      intro isFixed
      obtain ⟨m', hm', kinds⟩ := right isFixed d hd
      cases declared.symm.trans hm'
      exact kinds
    simp only
    split
    · next arity =>
      refine complies_fail_bind ⟨rfl, fun isFixed => absurd ?_ arity⟩
      simpa using congrArg List.length (kinds isFixed)
    · next arity =>
      refine (inboundArguments_consults (not_not.mp arity) kinds).bind fun arguments typed => ?_
      refine (callMethod_complies sound hb htag hd declared typed).bind fun value t keeps result => ?_
      exact outbound_complies (keeps.registry_eq ▸ result)

theorem manufacture_complies {factory : Factory}
    (native : TaskModel.factories.lookup id = some factory) :
    (manufacture factory).Complies fixed s fun p _ => ∀ r, p.WellTyped r := by
  rcases lookup_factories native with ⟨rfl, rfl⟩ | ⟨rfl, rfl⟩ | ⟨rfl, rfl⟩
  · exact complies_pure fun _ => trivial
  · exact complies_run rfl (keepsTypes_of_heap rfl fun h => h) (complies_pure fun _ => trivial)
  · exact complies_run rfl (keepsTypes_of_heap rfl fun h => h)
      (complies_get (complies_pure fun _ => trivial))

theorem createObject_complies (sound : s.Sound) (id : InterfaceId) :
    (createObject id).Complies fixed s fun _ _ => True := by
  have made : (construct id).Complies fixed s fun _ _ => True := by
    refine complies_get ?_
    split
    · exact complies_fail ⟨rfl, fun _ => rfl⟩
    · next factory found =>
      have native : TaskModel.factories.lookup id = some factory := by
        rcases sound.model with registered | ⟨unregistered, _⟩
        · rwa [registered.factories_eq] at found
        · rw [unregistered.factories_eq] at found
          cases found
      refine (manufacture_complies native).bind fun p t _ typed => ?_
      exact (create_complies _ (typed _)).imp fun _ _ _ => trivial
  exact made.bind fun ref _ _ _ => issue_complies ref

/-! ### Calls -/

/-- A request leaves a well-typed state behind and fails with fair faults only. -/
def Upholds (fixed : Bool) (op : Op α) (s : State) : Prop :=
  op.Meets s (fun _ t => t.WellTyped) fun e t => t.WellTyped ∧ e.toFault.Fair fixed

theorem Complies.upholds {op : Op α} (typed : s.WellTyped)
    (h : op.Complies fixed s fun _ _ => True) : op.Upholds fixed s :=
  Meets.imp h (fun _ _ ⟨keeps, _⟩ => keeps.wellTyped typed)
    fun _ _ ⟨keeps, fair⟩ => ⟨keeps.wellTyped typed, fair⟩

theorem Unregistered.wellTyped_withModel (unregistered : s.Unregistered) (typed : s.WellTyped) :
    s.withModel.WellTyped := by
  refine Heap.WellTyped.mono (fun id d found => ?_) typed
  rw [unregistered.registry_eq] at found
  cases found

/-- The task model is found registered, or it is registered first. -/
theorem upholds_taskIds {next : TaskIds → Op β} (sound : s.Sound) (typed : s.WellTyped)
    (h : ∀ t : State, t.Sound → t.Registered → t.WellTyped →
      (next TaskModel.ids).Upholds fixed t) : (taskIds >>= next).Upholds fixed s := by
  rcases sound.model with registered | ⟨unregistered, _⟩
  · exact meets_run registered.run_taskIds (h s sound registered typed)
  · refine meets_run unregistered.run_taskIds ?_
    exact h s.withModel sound.withModel (registered_withModel s)
      (Unregistered.wellTyped_withModel unregistered typed)

end Op

/-! ### Typed entry points -/

namespace Binding

/-- Whether the member is declared and takes arguments of the fixed kinds. -/
def declared (b : Binding) : Bool :=
  let declaration := TaskModel.registry.interface? (b.role.id TaskModel.ids)
  match b.access with
  | .get _ => (declaration.bind (·.property? b.member)).isSome
  | .set kind =>
    (declaration.bind (·.property? b.member)).any fun p => TaskModel.registry.kindOf p.ty = kind
  | .call parameters _ =>
    (declaration.bind (·.method? b.member)).any fun m =>
      m.parameters.map (TaskModel.registry.kindOf ·.ty) = parameters

theorem all_declared : ∀ b ∈ all, b.declared := by decide +kernel

section Declared

variable {b : Binding} {d : InterfaceDescriptor} (hb : b ∈ all)
  (hd : TaskModel.registry.interface? (b.role.id TaskModel.ids) = some d)

include hb hd

theorem declares_get {kind : Kind} (access : b.access = .get kind) :
    ∃ p, d.property? b.member = some p := by
  simpa [declared, access, hd, Option.isSome_iff_exists] using all_declared b hb

theorem declares_set {kind : Kind} (access : b.access = .set kind) :
    ∃ p, d.property? b.member = some p ∧ TaskModel.registry.kindOf p.ty = kind := by
  simpa [declared, access, hd, Option.any_eq_true] using all_declared b hb

theorem declares_call {parameters : List Kind} {result : Option Kind}
    (access : b.access = .call parameters result) :
    ∃ m, d.method? b.member = some m ∧
      m.parameters.map (TaskModel.registry.kindOf ·.ty) = parameters := by
  simpa [declared, access, hd, Option.any_eq_true] using all_declared b hb

end Declared

theorem expectKind_complies {w : Wire} {kind : Kind} (h : w.kind? = some kind) :
    (expectKind kind w).Complies fixed s fun _ _ => True := by
  rw [expectKind_run h]
  exact complies_pure trivial

theorem run_upholds {b : Binding} (hb : b ∈ all) (sound : s.Sound) (typed : s.WellTyped)
    (h : Handle) {ws : List Wire}
    (right : fixed = true → ws.map Wire.kind? = b.parameters.map some) :
    (b.run h ws).Upholds fixed s := by
  refine upholds_taskIds sound typed fun t sound registered typed => Complies.upholds typed ?_
  have registry_eq := registered.registry_eq
  have agreed := all_agree b hb
  unfold agrees at agreed
  unfold parameters at right
  cases access : b.access with
  | get kind =>
    rw [access] at agreed
    have read : (getProperty h (b.role.id TaskModel.ids) b.member).Complies fixed t
        fun _ _ => True :=
      getProperty_complies sound fun _ d hd => declares_get hb (registry_eq ▸ hd) access
    refine (read.and_meets (getProperty_meets sound h _ _)).bind ?_
    rintro w u _ ⟨_, _, d, p, hd, hp, hkind⟩
    rw [registry_eq] at hd hkind
    simp only [hd, Option.bind_some, hp, Option.all_some, decide_eq_true_eq] at agreed
    exact (expectKind_complies (agreed ▸ hkind)).bind fun _ _ _ _ => complies_pure trivial
  | set kind =>
    rw [access] at right
    have written : (setProperty h (b.role.id TaskModel.ids) b.member (ws.headD .void)).Complies
        fixed t fun _ _ => True := by
      refine setProperty_complies sound fun isFixed d hd => ?_
      rw [registry_eq] at hd ⊢
      obtain ⟨p, hp, kind_eq⟩ := declares_set hb hd access
      obtain ⟨w, rfl, hw⟩ := List.map_eq_singleton_iff.mp (right isFixed)
      exact ⟨p, hp, by rw [kind_eq]; exact hw⟩
    exact written.bind fun _ _ _ _ => complies_pure trivial
  | call parameters result =>
    rw [access] at agreed right
    have called : (invoke h (b.role.id TaskModel.ids) b.member ws).Complies fixed t
        fun _ _ => True := by
      refine invoke_complies sound fun isFixed d hd => ?_
      rw [registry_eq] at hd ⊢
      obtain ⟨m, hm, kinds⟩ := declares_call hb hd access
      refine ⟨m, hm, ?_⟩
      rw [right isFixed, ← kinds, List.map_map]
      rfl
    cases result with
    | none => exact called.bind fun _ _ _ _ => complies_pure trivial
    | some kind =>
      refine (called.and_meets (invoke_meets sound h _ _ ws)).bind ?_
      rintro w u _ ⟨_, _, d, m, hd, hm, hkind⟩
      rw [registry_eq] at hd hkind
      simp only [hd, Option.bind_some, hm, Option.all_some, decide_eq_true_eq] at agreed
      exact (expectKind_complies (agreed ▸ hkind)).bind fun _ _ _ _ => complies_pure trivial

end Binding

namespace Op

variable {α β : Type}

/-- A call that is about the task behind a handle. -/
theorem nativeTask_upholds {next : Ref × Task → Op β} (sound : s.Sound) (typed : s.WellTyped)
    (h : Handle) (hnext : ∀ t ref task, (next (ref, task)).Complies fixed t fun _ _ => True) :
    (nativeTask h >>= next).Upholds fixed s := by
  unfold nativeTask
  rw [bind_assoc]
  refine upholds_taskIds sound typed fun t _ _ typed => Complies.upholds typed ?_
  rw [bind_assoc]
  refine (resolve_consults h _).bind fun ref _ => ?_
  rw [bind_assoc]
  refine complies_get ?_
  split
  · exact hnext t _ _
  · exact complies_fail_bind ⟨rfl, fun _ => rfl⟩

theorem tagItem_upholds (sound : s.Sound) (typed : s.WellTyped) (h : Handle) (index : Nat) :
    (tagItem h index).Upholds fixed s := by
  refine nativeTask_upholds sound typed h fun t ref task => ?_
  simp only
  split
  · exact issueText_complies _
  · exact complies_fail ⟨rfl, fun _ => rfl⟩

theorem addTag_upholds (sound : s.Sound) (typed : s.WellTyped) (h value : Handle) :
    (addTag h value).Upholds fixed s := by
  refine nativeTask_upholds sound typed h fun t ref task => ?_
  exact (readText_consults value).bind fun _ _ => replace_complies ref (by exact trivial)

end Op

namespace Call

variable {α : Type}

/-- A call of an entry point that takes and gives values of fixed types, with arguments of these
types. The other ones name a member and take any boundary values. -/
def IsTyped : Call → Prop
  | .getProperty _ _ _ | .setProperty _ _ _ | .invoke _ _ _ _ _ => False
  | .member b _ ws => ws.map Wire.kind? = b.parameters.map some
  | _ => True

theorem answer_upholds {op : Op α} {answer : α → Answer} (h : op.Upholds fixed s) :
    (op >>= fun a => pure (answer a)).Upholds fixed s :=
  Meets.bind h fun _ _ typed => meets_pure typed

theorem answer_complies {op : Op α} {answer : α → Answer}
    (h : op.Complies fixed s fun _ _ => True) :
    (op >>= fun a => pure (answer a)).Complies fixed s fun _ _ => True :=
  h.bind fun _ _ _ _ => complies_pure trivial

theorem read_consults (what : String) (argument : TextArgument) :
    (check (argument.read what)).Consults fixed s fun _ => True := by
  cases argument with
  | text value => exact consults_pure trivial
  | null | malformed => exact complies_fail ⟨rfl, fun _ => rfl⟩

theorem requireOutput_consults (wanted : Bool) :
    (requireOutput wanted).Consults fixed s fun _ => True := by
  unfold requireOutput
  split
  · exact consults_pure trivial
  · exact complies_fail ⟨rfl, fun _ => rfl⟩

theorem readArguments_consults (arguments : Option (List Wire)) (count : Nat) :
    (readArguments arguments count).Consults fixed s fun _ => True := by
  unfold readArguments
  split
  · exact consults_pure trivial
  · split
    · exact consults_pure trivial
    · exact complies_fail ⟨rfl, fun _ => rfl⟩

theorem deliver_complies (wanted : Bool) (w : Wire) :
    (deliver wanted w).Complies fixed s fun _ _ => True := by
  unfold deliver
  split
  · exact complies_pure trivial
  · split
    · exact (release_complies _ _).bind fun _ _ _ _ => complies_pure trivial
    · exact complies_pure trivial

/-- An exported call keeps a state well typed and fails with fair faults only. -/
theorem body_upholds (sound : s.Sound) (typed : s.WellTyped) (call : Call)
    (exported : call.Exported) (right : fixed = true → call.IsTyped) :
    call.body.Upholds fixed s := by
  have plain : ∀ {op : Op Answer}, op.Complies fixed s (fun _ _ => True) → op.Upholds fixed s :=
    fun h => h.upholds typed
  have named : ¬ call.IsTyped → ¬ fixed = true := fun h isFixed => h (right isFixed)
  cases call with
  | startUp =>
    exact plain (complies_run (run_modify s _) (keepsTypes_of_heap rfl fun h => h)
      (complies_pure trivial))
  | cleanUp | lastErrorText | lastErrorCode | clearLastError => exact plain (complies_pure trivial)
  | liveHandles => exact plain (complies_get (complies_pure trivial))
  | create interface =>
    refine plain (answer_complies ((read_consults _ interface).bind fun name _ => ?_))
    refine complies_get ?_
    split
    · next d _ => exact createObject_complies sound d.id
    · exact complies_fail ⟨rfl, fun _ => rfl⟩
  | addRef h => exact plain (answer_complies (duplicate_complies h none))
  | release h => exact plain (answer_complies (release_complies h none))
  | refcount h => exact plain (answer_complies (refcount_complies h none))
  | getProperty h name wanted =>
    refine plain ((interfaceOf_consults h).bind fun id _ => ?_)
    refine (read_consults _ name).bind fun name _ => ?_
    refine (requireOutput_consults wanted).bind fun _ _ => ?_
    exact answer_complies (getProperty_complies sound fun isFixed => absurd isFixed (named fun h => h))
  | setProperty h name value =>
    refine plain (answer_complies ((interfaceOf_consults h).bind fun id _ => ?_))
    refine (read_consults _ name).bind fun name _ => ?_
    exact setProperty_complies sound fun isFixed => absurd isFixed (named fun h => h)
  | invoke h method arguments count wanted =>
    refine plain ((interfaceOf_consults h).bind fun id _ => ?_)
    refine (read_consults _ method).bind fun method _ => ?_
    refine (readArguments_consults arguments count).bind fun ws _ => ?_
    refine (invoke_complies sound fun isFixed => absurd isFixed (named fun h => h)).bind ?_
    exact fun w t _ _ => deliver_complies wanted w
  | createText text =>
    refine plain (answer_complies ((read_consults _ text).bind fun text _ => ?_))
    exact issueText_complies text
  | textValue h =>
    exact plain (answer_complies ((readText_consults h).imp fun _ _ _ => trivial))
  | textLength h =>
    exact plain (answer_complies ((readText_consults h).bind fun _ _ => complies_pure trivial))
  | copyText h =>
    exact plain (answer_complies ((readText_consults h).bind fun text _ => issueText_complies text))
  | releaseText h => exact plain (answer_complies (release_complies h _))
  | newCollection kind => exact plain (answer_complies (newCollection_complies kind))
  | countItems kind h => exact plain (answer_complies (countItems_complies h kind))
  | releaseCollection kind h => exact plain (answer_complies (release_complies h _))
  | push h value => exact plain (answer_complies (pushItem_complies typed h value))
  | insertMember h value => exact plain (answer_complies (insertMember_complies typed h value))
  | insertEntry h key value =>
    exact plain (answer_complies (insertEntry_complies typed h key value))
  | item h index wanted =>
    refine plain ((requireOutput_consults wanted).bind fun _ _ => ?_)
    exact answer_complies (arrayItem_complies typed h index)
  | nextEntry h keyWanted valueWanted =>
    refine plain ((requireOutput_consults _).bind fun _ _ => ?_)
    refine (nextEntry_complies typed h).bind fun found t _ _ => ?_
    split <;> exact complies_pure trivial
  | nextMember h wanted =>
    refine plain ((requireOutput_consults wanted).bind fun _ _ => ?_)
    refine (nextMember_complies typed h).bind fun found t _ _ => ?_
    split <;> exact complies_pure trivial
  | reset kind h => exact plain (answer_complies (resetCursor_complies typed h kind))
  | createAs role =>
    refine answer_upholds (upholds_taskIds sound typed fun t sound _ typed => ?_)
    exact (createObject_complies sound _).upholds typed
  | addRefAs role h =>
    refine answer_upholds (upholds_taskIds sound typed fun t _ _ typed => ?_)
    exact (duplicate_complies h _).upholds typed
  | releaseAs role h =>
    refine answer_upholds (upholds_taskIds sound typed fun t _ _ typed => ?_)
    exact (release_complies h _).upholds typed
  | member b h ws =>
    refine Meets.bind (Binding.run_upholds (mem_of_exported exported) sound typed h right) ?_
    intro found t typed
    split <;> exact meets_pure typed
  | tagCount h =>
    exact answer_upholds (nativeTask_upholds sound typed h fun _ _ _ => complies_pure trivial)
  | tagItem h index => exact answer_upholds (tagItem_upholds sound typed h index)
  | clearTags h =>
    refine answer_upholds (nativeTask_upholds sound typed h fun _ ref _ => ?_)
    exact replace_complies ref (by exact trivial)
  | addTag h value => exact answer_upholds (addTag_upholds sound typed h value)

end Call

/-! ### Reachable states -/

namespace State

theorem wellTyped_empty : ({} : State).WellTyped := Heap.wellTyped_empty

theorem wellTyped_perform (sound : s.Sound) (typed : s.WellTyped) (thread : Nat) {call : Call}
    (exported : call.Exported) : (s.perform thread call).2.WellTyped := by
  have upheld : call.body.Upholds false s.countCall :=
    Call.body_upholds sound.countCall typed call exported fun h => by cases h
  rcases perform_cases s thread call with heq | heq | heq
  · rw [heq]
    exact typed
  · rw [heq]
    exact typed
  · rw [heq]
    rcases guarded_cases s thread ⟨call.sentinel, []⟩ call.body with ⟨a, t, hr, hg⟩ | ⟨e, t, hr, hg⟩
    · have kept : t.WellTyped := upheld.ok_of_run hr
      rw [hg]
      exact kept
    · have kept : t.WellTyped := (upheld.bad_of_run hr).1
      rw [hg]
      exact kept

theorem Step.wellTyped (step : s.Step t) (sound : s.Sound) (typed : s.WellTyped) :
    t.WellTyped := by
  cases step with
  | call thread exported => exact wellTyped_perform sound typed thread exported
  | surroundings options files now => exact typed

theorem Leads.wellTyped (leads : s.Leads t) (sound : s.Sound) (typed : s.WellTyped) :
    t.WellTyped := by
  induction leads with
  | refl => exact typed
  | step leads step ih => exact step.wellTyped (leads.advanced sound).sound ih

theorem Reachable.wellTyped (reachable : s.Reachable) : s.WellTyped :=
  Leads.wellTyped reachable sound_empty wellTyped_empty

end State

/-! ### Arguments of fixed types -/

namespace Argument

def kind : Argument → ParameterKind
  | .handle _ => .handle
  | .text _ => .text
  | .wire _ => .wire
  | .bool _ => .bool
  | .i32 _ => .i32
  | .size _ => .size
  | .output _ => .output
  | .wires _ => .wires

end Argument

namespace Binding

/-- The typed entry points take handles, truth values and 32-bit numbers. -/
theorem all_parameters : ∀ b ∈ all, ∀ kind ∈ b.parameters,
    kind = .handle ∨ kind = .bool ∨ kind = .i32 := by decide +kernel

theorem kinds_of_arguments {parameters : List Kind} {arguments : List Argument}
    (fixed : ∀ kind ∈ parameters, kind = .handle ∨ kind = .bool ∨ kind = .i32)
    (passed : arguments.map Argument.kind = parameters.map ParameterKind.ofKind) :
    (arguments.map Argument.toWire).map Wire.kind? = parameters.map some := by
  induction parameters generalizing arguments with
  | nil =>
    rw [List.map_eq_nil_iff.mp passed]
    rfl
  | cons kind parameters ih =>
    obtain ⟨first, rest, rfl, hfirst, hrest⟩ := List.map_eq_cons_iff.mp passed
    have tail := ih (fun k hk => fixed k (by simp [hk])) hrest
    have head : first.toWire.kind? = some kind := by
      rcases fixed kind (by simp) with rfl | rfl | rfl
      all_goals
        cases first <;> cases hfirst
        rfl
    simp only [List.map_cons, head, tail]

end Binding

/-- Whatever is called in a reachable state: the implementations are only asked for members that
they have, with arguments of the declared types, and they give values of the declared types. An
entry point of fixed types never finds itself at odds with the declaration of its member. -/
theorem State.no_ill_typed_request {e : Failure} {call : Call} (reachable : s.Reachable)
    (exported : call.Exported) (failed : s.countCall.run call.body = (.error e, t)) :
    e.toFault.isIllTyped = false ∧
      ∀ b ∈ Binding.all, ∀ arguments,
        arguments.map Argument.kind = (Export.ofBinding b).parameters →
        (Export.ofBinding b).call arguments = some call → e.toFault.isMisfit = false := by
  have sound := reachable.sound.countCall
  have typed : s.countCall.WellTyped := reachable.wellTyped
  have upheld (fixed : Bool) (right : fixed = true → call.IsTyped) : e.toFault.Fair fixed :=
    ((Call.body_upholds sound typed call exported right).bad_of_run failed).2
  refine ⟨(upheld false fun h => by cases h).typed, fun b hb arguments passed made => ?_⟩
  refine (upheld true fun _ => ?_).fits rfl
  obtain ⟨first, rest, rfl, hfirst, hrest⟩ := List.map_eq_cons_iff.mp passed
  cases first <;> cases hfirst
  cases made
  exact Binding.kinds_of_arguments (Binding.all_parameters b hb) hrest

/-- An array that a caller filled with a number is no list of tags: that is found out before the
task sees it. -/
theorem State.numbered_tags_refused :
    let task : Handle := .ofParts 0 1
    let tags : Handle := .ofParts 1 1
    let binding : Binding := ⟨"ITask_Settags", .task, "tags", .set .handle⟩
    let call : Call := .member binding task [.handle tags]
    let s := performAll {} [(0, .createAs .task), (0, .newCollection .array),
      (0, .push tags (.i32 7))]
    let e : Failure := .fault (.typeMismatch "string_t" "int32_t")
    (s.countCall.run call.body).1 = .error e ∧ e.toFault.isIllTyped = false ∧
      e.toFault.isMisfit = false := by
  intro task tags binding call s e
  have failed : (s.countCall.run call.body).1 = .error e := by decide +kernel
  have reachable : s.Reachable := by
    refine Leads.refl.performAll fun call hcall => ?_
    simp only [List.mem_cons, List.not_mem_nil, or_false] at hcall
    rcases hcall with rfl | rfl | rfl
    · exact .of_symbol "ITask_Create" [] rfl
    · exact .of_symbol "idlbridge_array_new" [] rfl
    · exact .of_symbol "idlbridge_array_push" [.handle _, .wire _] rfl
  have exported : call.Exported :=
    .of_symbol "ITask_Settags" [.handle task, .handle tags] rfl
  obtain ⟨typed, fits⟩ := no_ill_typed_request reachable exported (Prod.ext failed rfl)
  exact ⟨failed, typed, fits binding (by decide +kernel) [.handle task, .handle tags] rfl rfl⟩

end ObjectBoundary
