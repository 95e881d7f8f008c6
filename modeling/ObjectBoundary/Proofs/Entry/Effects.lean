import ObjectBoundary.Proofs.Tasks.Effects

/-!
# Calls as moves

Every call makes moves about the object behind its first handle, brings at most one generated id,
and restores objects only when it loads a file.
-/

namespace ObjectBoundary

open Op State

namespace Call

/-- The handle of the object that a call is about. -/
def primary? : Call → Option Handle
  | .startUp | .cleanUp | .liveHandles | .create _ | .lastErrorText | .lastErrorCode
  | .clearLastError | .createText _ | .newCollection _ | .createAs _ => none
  | .addRef h | .release h | .refcount h | .getProperty h _ _ | .setProperty h _ _
  | .invoke h _ _ _ _ | .textValue h | .textLength h | .copyText h | .releaseText h
  | .countItems _ h | .releaseCollection _ h | .push h _ | .insertMember h _
  | .insertEntry h _ _ | .item h _ _ | .nextEntry h _ _ | .nextMember h _ | .reset _ h
  | .addRefAs _ h | .releaseAs _ h | .member _ h _ | .tagCount h | .tagItem h _ | .clearTags h
  | .addTag h _ => some h

/-- Whether a call adds to a collection or moves its cursor. -/
def isTurn : Call → Bool
  | .push _ _ | .insertMember _ _ | .insertEntry _ _ _ | .nextEntry _ _ _ | .nextMember _ _
  | .reset _ _ => true
  | _ => false

def isLoad : Call → Bool
  | .invoke _ (.text method) _ _ _ => method == "Load"
  | .member b _ _ => b.member == "Load"
  | _ => false

end Call

namespace State

/-- The object that a call is about, if its handle is live. -/
def subject? (s : State) (call : Call) : Option Nat :=
  (call.primary?.bind s.handles.bound?).map (·.number)

/-- What a call is about in a state. -/
def errand (s : State) (call : Call) : Errand where
  subject := s.subject? call
  loads := call.isLoad = true
  clean := s.heap.Clean ∧ (call.isLoad = true → s.files.Clean)
  brings := s.files.Brings

/-- A handle leads to the object that a request is about, or nowhere. -/
def About (s : State) (h : Handle) (errand : Errand) : Prop :=
  ∀ ref, s.handles.bound? h = some ref → errand.subject = some ref.number

/-- If a handle leads to an object of an interface, then a request is about it. -/
def AboutObject (s : State) (h : Handle) (errand : Errand) : Prop :=
  ∀ ref, s.handles.bound? h = some ref → ref.tag.isInterface → errand.subject = some ref.number

end State

variable {errand : Errand} {s t : State} {h : Handle}

/-! ### Collections -/

namespace Op

variable {α β : Type} {wanted : β → State → Prop}

theorem collection_bound (sound : s.Sound) (h : Handle) (kind : CollectionKind) :
    (collection h kind).Finds s fun found => s.handles.bound? h = some found.1 ∧
      s.heap.payloadAt found.1.number = some (.collection found.2) := by
  refine (resolve_finds h _).bind fun ref ⟨hb, _⟩ => ?_
  refine (payload_finds (sound.holds_bound hb)).bind fun p hp => ?_
  split
  · exact finds_pure ⟨hb, hp⟩
  · exact finds_fail rfl

/-- The collection that a request is about takes another one's place. -/
theorem replace_collection_alters {ref : Ref} {c c' : Collection} (about : s.About h errand)
    (hb : s.handles.bound? h = some ref) (old : s.heap.payloadAt ref.number = some (.collection c))
    (clean : errand.clean → c'.Clean) :
    (replace ref (.collection c')).Alters errand 0 s fun _ _ => True :=
  replace_alters (about ref hb) old rfl (Heap.relists_of_eq rfl) clean (.inl rfl) nofun

theorem pushItem_alters (fit : s.Fit errand) (about : s.About h errand) (item : Wire) :
    (pushItem h item).Alters errand 0 s fun _ _ => True := by
  refine (collection_bound fit.sound h .array).bind_alters fun (ref, c) ⟨hb, hc⟩ => ?_
  refine (inboundUntyped_clean fit.sound item).bind_alters fun value hv => ?_
  refine (finds_of_yields (c.push_yields value)).bind_alters fun c' pushed => ?_
  refine replace_collection_alters about hb hc fun good => ?_
  exact Collection.Clean.push (fit.clean good _ _ hc) (hv (fit.clean good)) pushed

theorem insertMember_alters (fit : s.Fit errand) (about : s.About h errand) (item : Wire) :
    (insertMember h item).Alters errand 0 s fun _ _ => True := by
  refine (collection_bound fit.sound h .set).bind_alters fun (ref, c) ⟨hb, hc⟩ => ?_
  refine (inboundUntyped_clean fit.sound item).bind_alters fun value hv => ?_
  refine (finds_of_yields (c.insert_yields value)).bind_alters fun (isNew, c') inserted => ?_
  have clean : errand.clean → c'.Clean := fun good =>
    Collection.Clean.insert (fit.clean good _ _ hc) (hv (fit.clean good)) inserted
  exact (replace_collection_alters about hb hc clean).bind fun _ _ _ _ => alters_pure trivial

theorem insertEntry_alters (fit : s.Fit errand) (about : s.About h errand) (key item : Wire) :
    (insertEntry h key item).Alters errand 0 s fun _ _ => True := by
  refine (collection_bound fit.sound h .dict).bind_alters fun (ref, c) ⟨hb, hc⟩ => ?_
  refine (inboundKey_clean fit.sound key).bind_alters fun k hk => ?_
  refine (inboundUntyped_clean fit.sound item).bind_alters fun value hv => ?_
  refine (finds_of_yields (c.insertEntry_yields k value)).bind_alters fun (_, c') inserted => ?_
  refine replace_collection_alters about hb hc fun good => ?_
  exact Collection.Clean.insertEntry (fit.clean good _ _ hc) (hk (fit.clean good))
    (hv (fit.clean good)) inserted

theorem resetCursor_alters (fit : s.Fit errand) (about : s.About h errand)
    (kind : CollectionKind) : (resetCursor h kind).Alters errand 0 s fun _ _ => True := by
  refine (collection_bound fit.sound h kind).bind_alters fun (ref, c) ⟨hb, hc⟩ => ?_
  exact replace_collection_alters about hb hc fun good => fit.clean good _ _ hc

theorem arrayItem_alters (fit : s.Fit errand) (h : Handle) (index : Nat) :
    (arrayItem h index).Alters errand 0 s fun _ _ => True := by
  refine (collection_bound fit.sound h .array).bind_alters fun (ref, c) ⟨_, hc⟩ => ?_
  have found : (check (c.item index)).Finds s fun value => errand.clean → value.Clean := by
    unfold Collection.item
    split
    · next entry at_index =>
      exact finds_pure fun good => (fit.clean good _ _ hc entry (List.mem_of_getElem? at_index)).2
    · exact finds_fail rfl
  exact found.bind_alters fun value clean => (outboundAs_alters clean c.elemTy).trivial

/-- After values have been handed out, a cursor moves on in the collection that the request is
about. -/
theorem advance_alters {ref : Ref} {c : Collection} (clean : errand.clean → c.Clean)
    (subject : errand.subject = some ref.number) (grown : s.heap.Grown t.heap)
    (old : s.heap.payloadAt ref.number = some (.collection c)) :
    (replace ref (.collection c.advance)).Alters errand 0 t fun _ _ => True :=
  replace_alters subject (grown.payloadAt_eq old) rfl (Heap.relists_of_eq rfl) clean (.inl rfl) nofun

theorem nextMember_alters (fit : s.Fit errand) (about : s.About h errand) :
    (nextMember h).Alters errand 0 s fun _ _ => True := by
  refine (collection_bound fit.sound h .set).bind_alters fun (ref, c) ⟨hb, hc⟩ => ?_
  have whole : errand.clean → c.Clean := fun good => fit.clean good _ _ hc
  simp only
  cases hcurrent : c.current? with
  | none => exact alters_pure trivial
  | some entry =>
    have member : entry ∈ c.entries := List.mem_of_getElem? hcurrent
    refine (outboundAs_alters (fun good => (whole good entry member).2) c.elemTy).bind
      fun value t _ grown => ?_
    exact (advance_alters whole (about ref hb) grown hc).bind fun _ _ _ _ => alters_pure trivial

theorem nextEntry_alters (fit : s.Fit errand) (about : s.About h errand) :
    (nextEntry h).Alters errand 0 s fun _ _ => True := by
  refine (collection_bound fit.sound h .dict).bind_alters fun (ref, c) ⟨hb, hc⟩ => ?_
  have whole : errand.clean → c.Clean := fun good => fit.clean good _ _ hc
  simp only
  cases hcurrent : c.current? with
  | none => exact alters_pure trivial
  | some entry =>
    have member : entry ∈ c.entries := List.mem_of_getElem? hcurrent
    refine (outboundAs_alters (fun good => (whole good entry member).1) c.keyTy).bind
      fun key t _ first => ?_
    have second : (outboundAs entry.value c.elemTy).Alters errand 0 t
        fun _ u => t.heap.Grown u.heap :=
      outboundAs_alters (fun good => (whole good entry member).2) c.elemTy
    refine (second.tryCatch fun e u => ?_).bind fun value u _ grown => ?_
    · exact (discard_alters key).bind fun _ _ _ _ => alters_throw
    · exact (advance_alters whole (about ref hb) (first.trans grown) hc).bind fun _ _ _ _ =>
        alters_pure trivial

/-! ### Members of objects -/

variable {id : InterfaceId} {name : String}

theorem getProperty_alters (fit : s.Fit errand) (h : Handle) (id : InterfaceId) (name : String) :
    (getProperty h id name).Alters errand 0 s fun _ _ => True := by
  refine (target_finds h id).bind_alters fun (ref, d) ⟨hb, _, _⟩ => ?_
  refine (declaredProperty_finds d name).bind_alters fun p _ => ?_
  refine (readProperty_clean fit.sound (fit.sound.holds_bound hb) name).bind_alters
    fun value clean => ?_
  exact (outbound_alters (fun good => clean (fit.clean good)) p.ty).trivial

theorem setProperty_alters (fit : s.Fit errand) (about : s.AboutObject h errand) (w : Wire) :
    (setProperty h id name w).Alters errand 0 s fun _ _ => True := by
  refine (target_finds h id).bind_alters fun (ref, d) ⟨hb, htag, _⟩ => ?_
  refine (declaredProperty_finds d name).bind_alters fun p _ => ?_
  simp only
  split
  · exact alters_fail_bind
  · refine (inbound_clean fit.sound w p.ty).bind_alters fun value clean => ?_
    exact writeProperty_alters fit (fit.sound.holds_bound hb) (about ref hb (by rw [htag]; rfl))
      name fun good => clean (fit.clean good)

theorem invoke_alters (fit : s.Fit errand) (about : s.AboutObject h errand)
    (suits : errand.loads ↔ name = "Load") (ws : List Wire) :
    (Op.invoke h id name ws).Alters errand 1 s fun _ _ => True := by
  refine (target_finds h id).bind_alters fun (ref, d) ⟨hb, htag, _⟩ => ?_
  refine (declaredMethod_finds d name).bind_alters fun m _ => ?_
  simp only
  split
  · exact alters_fail_bind
  · refine (inboundArguments_clean fit.sound ws m.parameters).bind_alters fun arguments given => ?_
    have isInterface : ref.tag.isInterface := by rw [htag]; rfl
    have called := callMethod_alters fit (fit.sound.holds_bound hb) isInterface
      (about ref hb isInterface) suits fun good => given (fit.clean good)
    exact called.bind_last fun value t _ clean => (outbound_alters clean m.returns).trivial

/-- The task model is found registered, or it is registered first; no object changes. -/
theorem alters_taskIds {most : Nat} {next : TaskIds → Op β} (fit : s.Fit errand)
    (hnext : ∀ t : State, t.Fit errand → t.handles = s.handles →
      (next TaskModel.ids).Alters errand most t wanted) :
    (taskIds >>= next).Alters errand most s wanted := by
  rcases fit.sound.model with registered | ⟨unregistered, _⟩
  · exact alters_run registered.run_taskIds (.refl s) (hnext s fit rfl)
  · refine alters_run unregistered.run_taskIds (alters_of_heap_eq rfl rfl rfl) ?_
    exact hnext s.withModel ⟨fit.sound.withModel, fit.forest, fit.clean, fit.files, fit.brings⟩ rfl

theorem nativeTask_alters {next : Ref × Task → Op β} (fit : s.Fit errand)
    (about : s.AboutObject h errand)
    (hnext : ∀ (t : State) ref task, t.Fit errand → errand.subject = some ref.number →
      t.heap.payloadAt ref.number = some (.task task) →
      (next (ref, task)).Alters errand 0 t wanted) :
    (nativeTask h >>= next).Alters errand 0 s wanted := by
  unfold nativeTask
  rw [bind_assoc]
  refine alters_taskIds fit fun t fit handles_eq => ?_
  rw [bind_assoc]
  refine (resolve_finds h _).bind_alters fun ref ⟨hb, htag⟩ => ?_
  have subject := about ref (handles_eq ▸ hb) (by rw [htag _ rfl]; rfl)
  rw [bind_assoc]
  refine alters_get ?_
  split
  · next task htask =>
    rw [pure_bind]
    exact hnext t ref task fit subject (Heap.task?_eq_some_iff.mp htask)
  · exact alters_fail_bind

theorem tagItem_alters (fit : s.Fit errand) (about : s.AboutObject h errand) (index : Nat) :
    (tagItem h index).Alters errand 0 s fun _ _ => True := by
  refine nativeTask_alters fit about fun t ref task _ _ _ => ?_
  simp only
  split
  · exact (issueText_alters _).trivial
  · exact alters_fail

theorem clearTags_alters (fit : s.Fit errand) (about : s.AboutObject h errand) :
    (clearTags h).Alters errand 0 s fun _ _ => True := by
  refine nativeTask_alters fit about fun t ref task fit subject old => ?_
  refine replace_alters subject old rfl (Heap.relists_of_eq rfl) (fun good => ?_) (.inl rfl) nofun
  have whole : task.Clean := fit.clean good _ _ old
  exact { whole with tags := by simp }

theorem addTag_alters (fit : s.Fit errand) (about : s.AboutObject h errand) (value : Handle) :
    (addTag h value).Alters errand 0 s fun _ _ => True := by
  refine nativeTask_alters fit about fun t ref task fit subject old => ?_
  refine (readText_clean fit.sound value).bind_alters fun tag clean => ?_
  refine replace_alters subject old rfl (Heap.relists_of_eq rfl) (fun good => ?_) (.inl rfl) nofun
  have whole : task.Clean := fit.clean good _ _ old
  refine { whole with tags := fun text member => ?_ }
  rcases List.mem_append.mp member with member | member
  · exact whole.tags text member
  · rw [List.mem_singleton.mp member]
    exact clean (fit.clean good)

end Op

/-! ### Calls -/

theorem Binding.run_alters {b : Binding} (fit : s.Fit errand) (about : s.AboutObject h errand)
    (suits : errand.loads ↔ b.member = "Load") (ws : List Wire) :
    (b.run h ws).Alters errand 1 s fun _ _ => True := by
  have expected : ∀ {kind : Kind} {w : Wire} {t : State},
      (expectKind kind w >>= fun w => pure (some w)).Alters errand 0 t fun _ _ => True := by
    intro kind w t
    unfold expectKind
    split
    · exact alters_pure trivial
    · exact alters_fail_bind
  refine alters_taskIds fit fun t fit handles_eq => ?_
  have about : t.AboutObject h errand := fun ref hb => about ref (handles_eq ▸ hb)
  cases b.access with
  | get kind =>
    have read := (getProperty_alters fit h (b.role.id TaskModel.ids) b.member).mono (Nat.zero_le 1)
    exact read.bind_last fun _ _ _ _ => expected
  | set kind =>
    have written : (setProperty h (b.role.id TaskModel.ids) b.member (ws.headD .void)).Alters
        errand 1 t fun _ _ => True := (setProperty_alters fit about _).mono (Nat.zero_le 1)
    exact written.bind_last fun _ _ _ _ => alters_pure trivial
  | call parameters result =>
    cases result with
    | none => exact (invoke_alters fit about suits ws).bind_last fun _ _ _ _ => alters_pure trivial
    | some kind => exact (invoke_alters fit about suits ws).bind_last fun _ _ _ _ => expected

namespace Call

variable {α : Type} {most : Nat}

theorem answer_alters {op : Op α} {answer : α → Answer}
    (h : op.Alters errand most s fun _ _ => True) :
    (op >>= fun a => pure (answer a)).Alters errand most s fun _ _ => True :=
  h.bind_last fun _ _ _ _ => alters_pure trivial

/-- A call that only reads. -/
theorem reads_alters {op : Op α} {answer : α → Answer} {P : α → Prop} (h : op.Finds s P) :
    (op >>= fun a => pure (answer a)).Alters errand most s fun _ _ => True :=
  h.bind_alters fun _ _ => alters_pure trivial

theorem deliver_alters (wanted : Bool) (w : Wire) :
    (deliver wanted w).Alters errand 0 s fun _ _ => True := by
  unfold deliver
  split
  · exact alters_pure trivial
  · split
    · exact (release_alters _ _).bind fun _ _ _ _ => alters_pure trivial
    · exact alters_pure trivial

/-- A call makes moves about its object. -/
theorem body_alters (fit : s.Fit errand) (call : Call)
    (about : ∀ h, call.primary? = some h → s.AboutObject h errand)
    (turns : call.isTurn → ∀ h, call.primary? = some h → s.About h errand)
    (suits : errand.loads ↔ call.isLoad = true) :
    call.body.Alters errand 1 s fun _ _ => True := by
  have plain : ∀ {op : Op Answer}, op.Alters errand 0 s (fun _ _ => True) →
      op.Alters errand 1 s fun _ _ => True := fun h => h.mono (Nat.zero_le 1)
  cases call with
  | startUp =>
    exact alters_run (run_modify s _) (alters_of_heap_eq rfl rfl rfl) (alters_pure trivial)
  | cleanUp | lastErrorText | lastErrorCode | clearLastError => exact alters_pure trivial
  | liveHandles => exact alters_get (alters_pure trivial)
  | create interface =>
    refine answer_alters ((read_finds _ interface).bind_alters fun name _ => alters_get ?_)
    split
    · next d _ => exact createObject_alters fit.sound (by simp [suits, isLoad]) d.id
    · exact alters_fail
  | addRef h => exact answer_alters (duplicate_alters h none)
  | release h => exact answer_alters (release_alters h none)
  | refcount h => exact reads_alters (refcount_finds h none)
  | getProperty h name wanted =>
    refine (interfaceOf_finds h).bind_alters fun id _ => ?_
    refine (read_finds _ name).bind_alters fun name _ => ?_
    refine (requireOutput_finds wanted).bind_alters fun _ _ => ?_
    exact plain (answer_alters (getProperty_alters fit h id name))
  | setProperty h name value =>
    refine plain (answer_alters ((interfaceOf_finds h).bind_alters fun id _ => ?_))
    refine (read_finds _ name).bind_alters fun name _ => ?_
    exact setProperty_alters fit (about h rfl) value
  | invoke h method arguments count wanted =>
    refine (interfaceOf_finds h).bind_alters fun id _ => ?_
    refine (read_finds _ method).bind_alters fun name hname => ?_
    refine (readArguments_finds arguments count).bind_alters fun ws _ => ?_
    subst hname
    have suits' : errand.loads ↔ name = "Load" := by simpa [isLoad] using suits
    exact (invoke_alters fit (about h rfl) suits' ws).bind_last fun w _ _ _ =>
      deliver_alters wanted w
  | createText text =>
    refine answer_alters ((read_finds _ text).bind_alters fun text _ => ?_)
    exact (issueText_alters text).trivial
  | textValue h => exact reads_alters (readText_finds fit.sound h)
  | textLength h =>
    have length : (do return (← readText h).utf8ByteSize : Op Nat).Finds s fun _ => True :=
      (readText_finds fit.sound h).bind fun _ _ => finds_pure trivial
    exact reads_alters length
  | copyText h =>
    refine answer_alters ((readText_finds fit.sound h).bind_alters fun text _ => ?_)
    exact (issueText_alters text).trivial
  | releaseText h => exact answer_alters (release_alters h _)
  | newCollection kind =>
    exact answer_alters (issueCollection_alters rfl fun _ => Collection.clean_builder kind).trivial
  | countItems kind h => exact reads_alters (countItems_finds fit.sound h kind)
  | releaseCollection kind h => exact answer_alters (release_alters h _)
  | push h value => exact plain (answer_alters (pushItem_alters fit (turns rfl h rfl) value))
  | insertMember h value =>
    exact plain (answer_alters (insertMember_alters fit (turns rfl h rfl) value))
  | insertEntry h key value =>
    exact plain (answer_alters (insertEntry_alters fit (turns rfl h rfl) key value))
  | item h index wanted =>
    refine (requireOutput_finds wanted).bind_alters fun _ _ => ?_
    exact plain (answer_alters (arrayItem_alters fit h index))
  | nextEntry h keyWanted valueWanted =>
    refine (requireOutput_finds _).bind_alters fun _ _ => plain ?_
    refine (nextEntry_alters fit (turns rfl h rfl)).bind fun found t _ _ => ?_
    split <;> exact alters_pure trivial
  | nextMember h wanted =>
    refine (requireOutput_finds wanted).bind_alters fun _ _ => plain ?_
    refine (nextMember_alters fit (turns rfl h rfl)).bind fun found t _ _ => ?_
    split <;> exact alters_pure trivial
  | reset kind h => exact plain (answer_alters (resetCursor_alters fit (turns rfl h rfl) kind))
  | createAs role =>
    refine answer_alters (alters_taskIds fit fun t fit _ => ?_)
    exact createObject_alters fit.sound (by simp [suits, isLoad]) _
  | addRefAs role h => exact answer_alters (alters_taskIds fit fun t _ _ => duplicate_alters h _)
  | releaseAs role h => exact answer_alters (alters_taskIds fit fun t _ _ => release_alters h _)
  | member b h ws =>
    have suits' : errand.loads ↔ b.member = "Load" := by simpa [isLoad] using suits
    refine (Binding.run_alters fit (about h rfl) suits' ws).bind_last fun found t _ _ => ?_
    split <;> exact alters_pure trivial
  | tagCount h =>
    exact plain (answer_alters (nativeTask_alters fit (about h rfl) fun _ _ _ _ _ _ =>
      alters_pure trivial))
  | tagItem h index => exact plain (answer_alters (tagItem_alters fit (about h rfl) index))
  | clearTags h => exact plain (answer_alters (clearTags_alters fit (about h rfl)))
  | addTag h value => exact plain (answer_alters (addTag_alters fit (about h rfl) value))

end Call

namespace State

/-- A call as a whole, with the bookkeeping of the guard. It may be taken to be about no object when
it is a call for objects of interfaces and its handle leads to something else. -/
theorem perform_alters_about (sound : s.Sound) (forest : s.heap.Forest) (thread : Nat) (call : Call)
    (subject : Option Nat)
    (about : ∀ h, call.primary? = some h → s.AboutObject h { s.errand call with subject })
    (turns : call.isTurn → ∀ h, call.primary? = some h →
      s.About h { s.errand call with subject }) :
    s.Alters { s.errand call with subject } 1 (s.perform thread call).2 := by
  have fit : s.countCall.Fit { s.errand call with subject } :=
    ⟨sound.countCall, forest, fun clean => clean.1, fun clean loads => clean.2 loads,
      fun _ brought => brought⟩
  have counted : s.Alters { s.errand call with subject } 0 s.countCall :=
    alters_of_heap_eq rfl rfl rfl
  have body := Call.body_alters fit call about turns Iff.rfl
  rcases perform_cases s thread call with heq | heq | heq
  · rw [heq]
    exact .refl s
  · rw [heq]
    exact alters_of_heap_eq rfl rfl rfl
  · rw [heq]
    rcases guarded_cases s thread ⟨call.sentinel, []⟩ call.body with
      ⟨a, t, hr, hg⟩ | ⟨e, t, hr, hg⟩
    · rw [hg]
      have done := counted.trans (body.ok_of_run hr).1 (Nat.le_refl 1)
      exact done.trans (m := 0) (alters_of_heap_eq rfl rfl rfl) (Nat.le_refl 1)
    · rw [hg]
      have done := counted.trans (body.bad_of_run hr) (Nat.le_refl 1)
      exact done.trans (m := 0) (alters_of_heap_eq rfl rfl rfl) (Nat.le_refl 1)

theorem about_subject? {call : Call} {h : Handle} (primary : call.primary? = some h) :
    s.About h (s.errand call) := by
  intro ref hb
  simp only [State.errand, subject?, primary, Option.bind_some, hb, Option.map_some]

theorem perform_alters (sound : s.Sound) (forest : s.heap.Forest) (thread : Nat) (call : Call) :
    s.Alters (s.errand call) 1 (s.perform thread call).2 :=
  perform_alters_about sound forest thread call (s.subject? call)
    (fun _ primary ref hb _ => about_subject? primary ref hb) fun _ _ => about_subject?

theorem Step.forest (step : s.Step t) (sound : s.Sound) (forest : s.heap.Forest) :
    t.heap.Forest := by
  cases step with
  | @call thread call exported => exact (perform_alters sound forest thread call).forest forest
  | surroundings options files now => exact forest

theorem Reachable.forest (reachable : s.Reachable) : s.heap.Forest := by
  have both : s.Sound ∧ s.heap.Forest := by
    induction reachable with
    | refl => exact ⟨sound_empty, Heap.forest_empty⟩
    | step _ step ih => exact ⟨(step.advanced ih.1).sound, step.forest ih.1 ih.2⟩
  exact both.2

end State

end ObjectBoundary
