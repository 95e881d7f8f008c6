import ObjectBoundary.Proofs.Moves

/-!
# Requests as moves

`Alters` says of a request that it makes moves only, whether it succeeds or fails, and that it gives
out a bounded number of ids. The requests on handles and values give out none: values that come in
and go out are copied, and the copies are as clean as what they are copied from.
-/

namespace ObjectBoundary

namespace State

/-- Moves that bring a bounded number of ids, unless they restore objects. -/
def Alters (errand : Errand) (most : Nat) (s t : State) : Prop :=
  ∃ ids, s.Moves errand ids t ∧ (errand.loads ∨ ids.length ≤ most)

variable {errand : Errand} {most n m : Nat} {s t u : State} {ids : List (IdKind × String)}

theorem Move.alters (move : s.Move errand ids t) (few : errand.loads ∨ ids.length ≤ most) :
    s.Alters errand most t := ⟨ids, move.moves, few⟩

theorem Alters.refl (s : State) : s.Alters errand most s := ⟨[], .refl, .inr (Nat.zero_le _)⟩

theorem Alters.mono (alters : s.Alters errand n t) (le : n ≤ m) : s.Alters errand m t := by
  obtain ⟨ids, moves, few⟩ := alters
  exact ⟨ids, moves, few.imp_right fun h => Nat.le_trans h le⟩

theorem Alters.trans (first : s.Alters errand n t) (second : t.Alters errand m u)
    (le : n + m ≤ most) : s.Alters errand most u := by
  obtain ⟨ids, moves, few⟩ := first
  obtain ⟨more, moves', few'⟩ := second
  refine ⟨ids ++ more, moves.trans moves', ?_⟩
  rcases few with loads | few
  · exact .inl loads
  · refine few'.imp_right fun few' => ?_
    rw [List.length_append]
    omega

theorem Alters.framed (alters : s.Alters errand most t) : s.Framed errand t := by
  obtain ⟨_, moves, _⟩ := alters
  exact moves.framed

theorem Alters.forest (alters : s.Alters errand most t) (forest : s.heap.Forest) :
    t.heap.Forest := by
  obtain ⟨_, moves, _⟩ := alters
  exact moves.forest forest

theorem Alters.clean (alters : s.Alters errand most t) (good : errand.clean)
    (clean : s.heap.Clean) : t.heap.Clean := by
  obtain ⟨_, moves, _⟩ := alters
  exact moves.clean good clean

theorem Alters.collectionAt (alters : s.Alters errand most t) (aside : errand.subject ≠ some n)
    {c : Collection} (found : t.heap.payloadAt n = some (.collection c)) :
    s.heap.payloadAt n = some (.collection c) ∨ s.heap.objects.length ≤ n ∧ c.cursor = 0 := by
  obtain ⟨_, moves, _⟩ := alters
  exact moves.collectionAt aside found

theorem Alters.textAt (alters : s.Alters errand most t) {text : String}
    (found : t.heap.payloadAt n = some (.text text)) :
    s.heap.payloadAt n = some (.text text) ∨ Text.Clean text := by
  obtain ⟨_, moves, _⟩ := alters
  exact moves.textAt found

theorem Alters.dueAt (alters : s.Alters errand most t) {due : String}
    (found : t.dueAt n = some due) :
    s.dueAt n = some due ∨ Task.IsDueDate due ∨
      s.heap.objects.length ≤ n ∧ errand.loads ∧ errand.brings due := by
  obtain ⟨_, moves, _⟩ := alters
  exact moves.dueAt found

theorem alters_of_kept (kept : s.heap.Kept t.heap)
    (length_eq : t.heap.objects.length = s.heap.objects.length)
    (nextTask_eq : t.nextTask = s.nextTask) (nextProject_eq : t.nextProject = s.nextProject) :
    s.Alters errand most t := by
  refine (Move.aside kept length_eq fun kind => ?_).alters (.inr (Nat.zero_le _))
  cases kind
  · exact nextTask_eq
  · exact nextProject_eq

/-- Whatever is no object and no counter of ids may change. -/
theorem alters_of_heap_eq (heap_eq : t.heap = s.heap) (nextTask_eq : t.nextTask = s.nextTask)
    (nextProject_eq : t.nextProject = s.nextProject) : s.Alters errand most t :=
  alters_of_kept (heap_eq ▸ Heap.Kept.refl s.heap) (by rw [heap_eq]) nextTask_eq nextProject_eq

end State

namespace Op

open State

variable {α β : Type} {errand : Errand} {most : Nat} {s t : State} {op : Op α}
  {wanted : α → State → Prop} {wanted' : β → State → Prop} {P : α → Prop}

/-- A request makes moves, and gives what is wanted when it succeeds. -/
def Alters (errand : Errand) (most : Nat) (op : Op α) (s : State) (wanted : α → State → Prop) :
    Prop :=
  op.Meets s (fun a t => s.Alters errand most t ∧ wanted a t) fun _ t => s.Alters errand most t

theorem alters_pure {a : α} (h : wanted a s) : (pure a : Op α).Alters errand most s wanted :=
  meets_pure ⟨.refl s, h⟩

theorem alters_fail {fault : Fault} : (fail fault : Op α).Alters errand most s wanted :=
  meets_fail (.refl s)

theorem alters_fail_bind {fault : Fault} {next : α → Op β} :
    ((fail fault : Op α) >>= next).Alters errand most s wanted' :=
  meets_fail_bind (.refl s)

theorem alters_throw {e : Failure} : (throw e : Op α).Alters errand most s wanted :=
  meets_throw (.refl s)

theorem alters_get {next : State → Op β} (h : (next s).Alters errand most s wanted') :
    (get >>= next).Alters errand most s wanted' := meets_get h

theorem alters_of_run {a : α} (hr : s.run op = (.ok a, t)) (alters : s.Alters errand most t)
    (h : wanted a t) : op.Alters errand most s wanted := meets_of_run hr ⟨alters, h⟩

theorem Alters.imp {other : α → State → Prop} (h : op.Alters errand most s wanted)
    (himp : ∀ a t, wanted a t → other a t) : op.Alters errand most s other :=
  Meets.imp h (fun a t ⟨alters, ha⟩ => ⟨alters, himp a t ha⟩) fun _ _ he => he

theorem Alters.trivial (h : op.Alters errand most s wanted) :
    op.Alters errand most s fun _ _ => True := h.imp fun _ _ _ => True.intro

theorem Alters.mono {more : Nat} (h : op.Alters errand most s wanted) (le : most ≤ more) :
    op.Alters errand more s wanted :=
  Meets.imp h (fun _ _ ⟨alters, ha⟩ => ⟨alters.mono le, ha⟩) fun _ _ alters => alters.mono le

/-- Two requests one after another bring what both bring. -/
theorem Alters.bind_add {n m : Nat} {next : α → Op β} (h : op.Alters errand n s wanted)
    (hnext : ∀ a t, s.Alters errand n t → wanted a t → (next a).Alters errand m t wanted')
    (le : n + m ≤ most) : (op >>= next).Alters errand most s wanted' := by
  have first : op.Meets s (fun a t => s.Alters errand n t ∧ wanted a t)
      fun _ t => s.Alters errand most t :=
    Meets.imp h (fun _ _ ha => ha) fun _ _ alters => alters.mono (by omega)
  refine first.bind fun a t ⟨alters, ha⟩ => ?_
  exact Meets.imp (hnext a t alters ha) (fun _ _ ⟨alters', hb⟩ => ⟨alters.trans alters' le, hb⟩)
    fun _ _ alters' => alters.trans alters' le

theorem Alters.bind {next : α → Op β} (h : op.Alters errand 0 s wanted)
    (hnext : ∀ a t, s.Alters errand 0 t → wanted a t → (next a).Alters errand most t wanted') :
    (op >>= next).Alters errand most s wanted' :=
  h.bind_add hnext (by omega)

theorem Alters.bind_last {next : α → Op β} (h : op.Alters errand most s wanted)
    (hnext : ∀ a t, s.Alters errand most t → wanted a t → (next a).Alters errand 0 t wanted') :
    (op >>= next).Alters errand most s wanted' :=
  h.bind_add hnext (by omega)

theorem Alters.tryCatch {handler : Failure → Op α} (h : op.Alters errand 0 s wanted)
    (hnext : ∀ e t, (handler e).Alters errand 0 t wanted) :
    (tryCatch op handler).Alters errand 0 s wanted := by
  refine Meets.tryCatch h fun e t alters => ?_
  exact Meets.imp (hnext e t) (fun _ _ ⟨alters', ha⟩ => ⟨alters.trans alters' (by omega), ha⟩)
    fun _ _ alters' => alters.trans alters' (by omega)

/-- A step of which the outcome is known. -/
theorem alters_run {a : α} {next : α → Op β} (hr : s.run op = (.ok a, t))
    (alters : s.Alters errand 0 t) (h : (next a).Alters errand most t wanted') :
    (op >>= next).Alters errand most s wanted' :=
  meets_run hr (Meets.imp h (fun _ _ ⟨alters', hb⟩ => ⟨alters.trans alters' (by omega), hb⟩)
    fun _ _ alters' => alters.trans alters' (by omega))

/-- Reading is no move. -/
theorem Finds.bind_alters {next : α → Op β} (h : op.Finds s P)
    (hnext : ∀ a, P a → (next a).Alters errand most s wanted') :
    (op >>= next).Alters errand most s wanted' :=
  h.bind_meets (fun _ _ => .refl s) hnext

/-- What a step gives is what is found. -/
theorem finds_of_yields {x : Except Fault α} (yields : Yields x P) :
    (check x).Finds s fun a => x = .ok a := by
  cases x with
  | ok a => exact finds_pure rfl
  | error fault => exact finds_fail yields

/-! ### Handles and objects -/

variable {ref : Ref} {p p' : Payload}

theorem issue_alters (ref : Ref) :
    (issue ref).Alters errand most s fun _ t => s.heap.Grown t.heap := by
  unfold Alters Meets
  rw [run_issue]
  cases s.handles.issue s.options.maxLiveHandles ref with
  | ok given =>
    have grown := Heap.Grown.retain s.heap ref
    exact ⟨alters_of_kept grown.kept (Heap.length_retainAll s.heap [ref]) rfl rfl, grown⟩
  | error cause =>
    exact alters_of_kept (Heap.Kept.collect s.heap ref) (Heap.length_collect s.heap ref) rfl rfl

theorem release_alters (h : Handle) (expected : Option Tag) :
    (release h expected).Alters errand most s fun _ _ => True := by
  unfold Alters Meets
  rw [run_release]
  cases s.handles.release h expected with
  | ok given =>
    exact ⟨alters_of_kept (Heap.Kept.releaseAll s.heap [given.1])
      (Heap.length_releaseAll s.heap [given.1]) rfl rfl, True.intro⟩
  | error cause => cases cause <;> exact alters_of_heap_eq rfl rfl rfl

theorem discard_alters (w : Wire) : (discard w).Alters errand 0 s fun _ _ => True := by
  unfold discard
  split
  · refine Alters.tryCatch ?_ fun _ _ => alters_pure True.intro
    exact (release_alters _ _).bind fun _ _ _ _ => alters_pure True.intro
  · exact alters_pure True.intro

theorem duplicate_alters (h : Handle) (expected : Option Tag) :
    (duplicate h expected).Alters errand most s fun _ _ => True :=
  (resolve_finds h expected).bind_alters fun ref _ => (issue_alters ref).trivial

theorem issueNew_alters (tag : Tag) (plain : p.identity? = none) (childless : p.children = [])
    (clean : errand.clean → p.Clean) (pristine : p.Pristine) :
    (issueNew tag p).Alters errand most s fun _ t => s.heap.Grown t.heap := by
  refine alters_run (run_create s tag p) ((Move.make tag plain childless clean pristine).alters
    (.inr (Nat.zero_le _))) ?_
  exact (issue_alters _).imp fun _ _ grown => (quiet_withNew s tag p).grown.trans grown

theorem issueText_alters (text : String) :
    (issueText text).Alters errand most s fun _ t => s.heap.Grown t.heap := by
  unfold issueText
  cases admitted : Text.checkNul text with
  | error fault => exact alters_fail_bind
  | ok content =>
    have clean : Text.Clean content := by
      obtain ⟨clean, rfl⟩ := Text.checkNul_eq_ok_iff.mp admitted
      exact clean
    exact issueNew_alters .string rfl rfl (fun _ => clean) clean

theorem issueCollection_alters {c : Collection} (unread : c.cursor = 0)
    (clean : errand.clean → c.Clean) :
    (issueCollection c).Alters errand most s fun _ t => s.heap.Grown t.heap :=
  issueNew_alters c.kind.tag rfl rfl clean unread

/-- The object that a request is about is given another payload. -/
theorem replace_alters (subject : errand.subject = some ref.number)
    (old : s.heap.payloadAt ref.number = some p) (identity : p'.identity? = p.identity?)
    (relists : s.heap.Relists p.children p'.children) (clean : errand.clean → p'.Clean)
    (dated : p'.due? = p.due? ∨ p'.Dated) (wordless : ∀ text, p' ≠ .text text) :
    (replace ref p').Alters errand most s fun _ _ => True :=
  alters_of_run (run_replace s ref p')
    ((Move.change subject old identity relists clean dated wordless).alters
      (.inr (Nat.zero_le _))) True.intro

/-! ### Values that come in -/

theorem textOf_clean (holds : s.heap.Holds ref) :
    (textOf ref).Finds s fun text => s.heap.Clean → Text.Clean text := by
  refine (payload_finds holds).bind fun p hp => ?_
  split
  · exact finds_pure fun clean => clean _ _ hp
  · exact finds_fail rfl

theorem readText_clean (sound : s.Sound) (h : Handle) :
    (readText h).Finds s fun text => s.heap.Clean → Text.Clean text :=
  (resolve_holds sound h _).bind fun _ ⟨holds, _⟩ => textOf_clean holds

theorem contentOf_clean (holds : s.heap.Holds ref) :
    (contentOf ref).Finds s fun value => s.heap.Clean → value.Clean := by
  unfold contentOf
  split
  · exact finds_pure fun _ => .flat rfl
  · exact (textOf_clean holds).bind fun _ clean => finds_pure fun h => .str (clean h)
  -- The three kinds of collections are read alike.
  all_goals
    refine (payload_finds holds).bind fun p hp => ?_
    split
    · exact finds_pure fun clean => Collection.Clean.toValue (clean _ _ hp)
    · exact finds_get (finds_fail rfl)

theorem typedContentOf_clean (holds : s.heap.Holds ref) (ty : Ty) :
    (typedContentOf ref ty).Finds s fun value => s.heap.Clean → value.Clean := by
  refine (contentOf_clean holds).bind fun value clean => ?_
  have converted : (get >>= fun s => check (s.registry.conform ty value) : Op Value).Finds s
      fun value => s.heap.Clean → value.Clean :=
    finds_get ((finds_of_yields (s.registry.conform_yields ty value)).imp
      fun _ conformed h => Registry.conform_clean conformed (clean h))
  split
  · exact converted
  · exact converted
  · exact converted
  · exact finds_pure clean
  · exact finds_pure clean

theorem inbound_clean (sound : s.Sound) (w : Wire) (ty : Ty) :
    (inbound w ty).Finds s fun value => s.heap.Clean → value.Clean := by
  refine (kindOf_finds w).bind fun kind _ => finds_get ?_
  have behind : (resolve w.handleBits ty.tag? >>= fun ref => typedContentOf ref ty).Finds s
      fun value => s.heap.Clean → value.Clean :=
    (resolve_holds sound _ _).bind fun ref ⟨holds, _⟩ => typedContentOf_clean holds ty
  by_cases hkind : kind = s.registry.kindOf ty
  · simp only [hkind, ne_eq, not_true_eq_false, if_false]
    cases ty with
    | enumeration id =>
      exact (finds_check (s.registry.checkEnumerator_yields id _)).bind fun _ _ =>
        finds_pure fun _ => .flat rfl
    | string | interface id | array elem | dict key elem | set elem => exact behind
    | _ => exact finds_pure fun _ => .flat rfl
  · simp only [ne_eq, hkind, not_false_eq_true, if_true]
    exact (finds_invalid _).bind fun _ h => h

theorem inboundUntyped_clean (sound : s.Sound) (w : Wire) :
    (inboundUntyped w).Finds s fun value => s.heap.Clean → value.Clean := by
  refine (kindOf_finds w).bind fun kind _ => ?_
  cases kind with
  | handle => exact (resolve_holds sound _ _).bind fun ref ⟨holds, _⟩ => contentOf_clean holds
  | _ => exact finds_pure fun _ => .flat rfl

theorem inboundKey_clean (sound : s.Sound) (w : Wire) :
    (inboundKey w).Finds s fun value => s.heap.Clean → value.Clean := by
  refine (inboundUntyped_clean sound w).bind fun key clean => ?_
  split
  · exact finds_pure clean
  · exact finds_pure clean
  · exact finds_pure clean
  · exact finds_invalid _

theorem inboundArguments_clean (sound : s.Sound) (ws : List Wire) (ps : List Parameter) :
    (inboundArguments ws ps).Finds s fun values =>
      s.heap.Clean → ∀ value ∈ values, value.Clean := by
  induction ws generalizing ps with
  | nil => exact finds_pure fun _ _ member => by cases member
  | cons w ws ih =>
    cases ps with
    | nil => exact finds_pure fun _ _ member => by cases member
    | cons p ps =>
      refine (inbound_clean sound w p.ty).bind fun value first => ?_
      refine (ih ps).bind fun values rest => finds_pure fun clean => ?_
      exact List.forall_mem_cons.mpr ⟨first clean, rest clean⟩

/-! ### Values that go out -/

variable {value : Value}

theorem wireOf_alters {op : Op Handle}
    (h : op.Alters errand most s fun _ t => s.heap.Grown t.heap) :
    (op >>= fun h => pure (Wire.handle h)).Alters errand most s
      fun _ t => s.heap.Grown t.heap :=
  h.bind_last fun _ _ _ grown => alters_pure grown

/-- A value that goes out is copied, and nothing else is touched. -/
theorem outbound_alters (clean : errand.clean → value.Clean) (ty : Ty) :
    (outbound value ty).Alters errand most s fun _ t => s.heap.Grown t.heap := by
  have plain : ∀ w : Wire, (pure w : Op Wire).Alters errand most s fun _ t => s.heap.Grown t.heap :=
    fun w => alters_pure (Heap.Grown.refl _)
  have wrong : ∀ found, (wrongResult found ty : Op Wire).Alters errand most s
      fun _ t => s.heap.Grown t.heap := fun found => alters_get alters_fail
  have copied : (check (Collection.snapshot value ty) >>= fun c =>
      issueCollection c >>= fun h => pure (Wire.handle h)).Alters errand most s
        fun _ t => s.heap.Grown t.heap :=
    (finds_of_yields (Collection.snapshot_yields value ty)).bind_alters fun c taken =>
      wireOf_alters (issueCollection_alters (Collection.snapshot_eq_ok_iff.mp taken).2.2.1
        fun h => Collection.snapshot_clean taken (clean h))
  cases ty with
  | void => exact plain _
  | bool | i32 | i64 | f32 | f64 =>
    cases value
    all_goals first
      | exact wrong _
      | exact plain _
  | string =>
    cases value with
    | str text => exact wireOf_alters (issueText_alters text)
    | _ => exact wrong _
  | enumeration id =>
    have numbered : ∀ n, (enumeratorOut id n).Alters errand most s
        fun _ t => s.heap.Grown t.heap := by
      refine fun n => alters_get ((finds_check
        (s.registry.checkEnumerator_yields id n)).bind_alters fun m _ => ?_)
      split
      · exact plain _
      · exact plain _
    cases value
    all_goals first
      | exact wrong _
      | exact numbered _
  | interface id =>
    cases value with
    | object ref =>
      by_cases htag : ref.tag = .interface id
      · simp only [outbound, htag, ne_eq, not_true_eq_false, if_false]
        exact wireOf_alters (issue_alters ref)
      · simp only [outbound, ne_eq, htag, not_false_eq_true, if_true]
        exact alters_get ((wrongResult_finds _ _).bind_alters fun _ h => h.elim)
    | _ => exact wrong _
  | array elem => exact copied
  | dict key elem => exact copied
  | set elem => exact copied

theorem outboundUntyped_alters (clean : errand.clean → value.Clean) :
    (outboundUntyped value).Alters errand most s fun _ t => s.heap.Grown t.heap := by
  have copied : (check (Collection.untypedSnapshot value) >>= fun c =>
      issueCollection c >>= fun h => pure (Wire.handle h)).Alters errand most s
        fun _ t => s.heap.Grown t.heap :=
    (finds_of_yields (Collection.untypedSnapshot_yields value)).bind_alters fun c taken =>
      wireOf_alters (issueCollection_alters (Collection.untypedSnapshot_eq_ok_iff.mp taken).2.2.1
        fun h => Collection.untypedSnapshot_clean taken (clean h))
  cases value with
  | str text => exact wireOf_alters (issueText_alters text)
  | object ref => exact wireOf_alters (issue_alters ref)
  | array | dict | set => exact copied
  | _ => exact alters_pure (Heap.Grown.refl _)

theorem outboundAs_alters (clean : errand.clean → value.Clean) (declared : Option Ty) :
    (outboundAs value declared).Alters errand most s fun _ t => s.heap.Grown t.heap := by
  cases declared with
  | none => exact outboundUntyped_alters clean
  | some ty => exact outbound_alters clean ty

end Op

end ObjectBoundary
