import ObjectBoundary.Proofs.Marshal.Compliance
import ObjectBoundary.Proofs.Marshal.Effects
import ObjectBoundary.Proofs.Marshal.RoundTrip

/-!
# Values that reach the caller

Handing out a value of its declared type fails for two reasons only: the value is a text with a NUL,
or it takes a handle and there is none left. Otherwise the caller gets the value itself, a handle of
the object, or a handle of a new copy.
-/

namespace ObjectBoundary

/-! ### Room for handles -/

namespace HandleTable

/-- The number of handles that can be given out before the table is full. -/
def room (table : HandleTable) : Nat := table.free.length + (capacity - table.slots.length)

/-- So many handles can be given out under a limit. A limit of zero is none. -/
def Grants (table : HandleTable) (limit n : Nat) : Prop :=
  n = 0 ∨ n ≤ table.room ∧ (limit = 0 ∨ table.live + n ≤ limit)

/-- A handle is given out exactly when one can be, and it takes its room. -/
theorem WellFormed.issue_exact {table : HandleTable} (wf : table.WellFormed) (limit : Nat)
    (ref : Ref) :
    (∃ h table', table.issue limit ref = .ok (h, table') ∧ table.Grants limit 1 ∧
        table'.room + 1 = table.room ∧ table'.live = table.live + 1) ∨
      ∃ cause, table.issue limit ref = .error cause ∧ ¬ table.Grants limit 1 := by
  cases issued : table.issue limit ref with
  | ok made =>
    obtain ⟨h, table'⟩ := made
    have below : ¬ (limit > 0 ∧ table.live ≥ limit) := by
      intro full
      rw [HandleTable.issue, if_pos full] at issued
      cases issued
    have taken : table'.room + 1 = table.room ∧ table'.live = table.live + 1 := by
      unfold HandleTable.room
      rcases wf.issue_cases issued with
        ⟨index, rest, g, free, _, _, _, rfl⟩ | ⟨free, small, _, rfl⟩
      · refine ⟨?_, rfl⟩
        simp only [free, List.length_set, List.length_cons]
        omega
      · refine ⟨?_, rfl⟩
        simp only [free, List.length_append, List.length_singleton, List.length_nil]
        omega
    refine .inl ⟨h, table', rfl, .inr ⟨by omega, by omega⟩, taken⟩
  | error cause =>
    refine .inr ⟨cause, rfl, ?_⟩
    rintro (none | ⟨room, allowed⟩)
    · cases none
    -- Below the limit, a handle is refused only when no slot is free and none can be added.
    unfold HandleTable.issue at issued
    rw [if_neg (by omega)] at issued
    cases free : table.free with
    | cons index rest =>
      obtain ⟨g, found, _⟩ := (wf.mem_free index).mp (by simp [free])
      simp only [free, found] at issued
      cases issued
    | nil =>
      have small : ¬ capacity ≤ table.slots.length := by
        simp only [HandleTable.room, free, List.length_nil] at room
        omega
      simp only [free, ge_iff_le, small, if_false] at issued
      cases issued

/-- Ending a handle makes at most as much room as the handle took. -/
theorem WellFormed.room_release {table table' : HandleTable} (wf : table.WellFormed) {h : Handle}
    {expected : Option Tag} {ref : Ref} (ok : table.release h expected = .ok (ref, table')) :
    table'.room + table'.live ≤ table.room + table.live := by
  obtain ⟨occupied, rfl⟩ := release_cases ok
  have live : 0 < table.live := by
    rw [wf.live_eq]
    exact List.countP_pos_iff.mpr ⟨_, List.mem_of_getElem? occupied, rfl⟩
  simp only [HandleTable.room, vacate, List.length_set]
  split
  · simp only [List.length_cons]
    omega
  · omega

end HandleTable

/-! ### What the caller gets -/

/-- The value is no text with a NUL. Copies of collections may hold such texts. -/
def Value.Passable (value : Value) : Prop := ∀ text, value = .str text → Text.Clean text

theorem Value.passable_str_iff {text : String} : (Value.str text).Passable ↔ Text.Clean text :=
  ⟨fun passable => passable text rfl, by rintro clean _ ⟨⟩; exact clean⟩

theorem Value.Clean.passable {value : Value} (clean : value.Clean) : value.Passable := by
  rintro text rfl
  exact clean_str_iff.mp clean

theorem Value.passable_of_not_str {value : Value} (other : ∀ text, value ≠ .str text) :
    value.Passable := fun text same => absurd same (other text)

/-- The number of handles that a value takes when it is handed out. -/
def Value.width : Value → Nat
  | .str _ | .object _ | .array _ | .set _ | .dict _ => 1
  | _ => 0

theorem Value.width_le_one (value : Value) : value.width ≤ 1 := by
  cases value <;> simp [width]

/-- An object that was made as a copy of a value. -/
def Payload.Copies (value : Value) : Payload → Prop
  | .text content => value = .str content
  | .collection c => Collection.entriesOf? value = some (c.kind, c.entries)
  | _ => False

namespace State

variable {s t : State} {n first : Nat} {value : Value} {w : Wire}

/-- At least so many handles can be given out. -/
structure Ready (s : State) (n : Nat) : Prop where
  unlimited : s.options.maxLiveHandles = 0
  room : n ≤ s.handles.room

def Grants (s : State) (n : Nat) : Prop := s.handles.Grants s.options.maxLiveHandles n

/-- So many handles have been given out. -/
structure Spends (s : State) (n : Nat) (t : State) : Prop where
  room_eq : t.handles.room + n = s.handles.room
  live_eq : t.handles.live = s.handles.live + n
  options_eq : t.options = s.options

theorem Spends.refl (s : State) : s.Spends 0 s := ⟨rfl, rfl, rfl⟩

theorem Spends.trans {m : Nat} {u : State} (first : s.Spends n t) (second : t.Spends m u) :
    s.Spends (n + m) u where
  room_eq := by
    have := first.room_eq
    have := second.room_eq
    omega
  live_eq := by rw [second.live_eq, first.live_eq, Nat.add_assoc]
  options_eq := second.options_eq.trans first.options_eq

/-- Some handles after others can be given out exactly when all of them can. -/
theorem Spends.grants_iff {m : Nat} (spends : s.Spends n t) (granted : s.Grants n) :
    t.Grants m ↔ s.Grants (n + m) := by
  have room := spends.room_eq
  have live := spends.live_eq
  simp only [Grants, HandleTable.Grants, spends.options_eq] at granted ⊢
  omega

theorem Grants.mono {m : Nat} (granted : s.Grants n) (le : m ≤ n) : s.Grants m := by
  simp only [Grants, HandleTable.Grants] at granted ⊢
  omega

theorem Ready.grants {m : Nat} (ready : s.Ready (n + m)) : s.Grants m :=
  .inr ⟨Nat.le_trans (Nat.le_add_left m n) ready.room, .inl ready.unlimited⟩

theorem Ready.spent {m : Nat} (ready : s.Ready (n + m)) (spends : s.Spends m t) : t.Ready n where
  unlimited := by rw [spends.options_eq, ready.unlimited]
  room := by
    have := ready.room
    have := spends.room_eq
    omega

theorem Ready.mono {m : Nat} (ready : s.Ready n) (le : m ≤ n) : s.Ready m :=
  ⟨ready.unlimited, Nat.le_trans le ready.room⟩

/-- One handle is enough for any value. -/
theorem Ready.covers (ready : s.Ready (n + 1)) (value : Value) : s.Ready (n + value.width) :=
  ready.mono (Nat.add_le_add_left value.width_le_one n)

/-- A boundary value is a live handle of an object. -/
def Names (s : State) (w : Wire) (ref : Ref) : Prop :=
  ∃ h, w = .handle h ∧ s.handles.bound? h = some ref

/-- What a boundary value stands for. A copy is an object from a number on. -/
def Shows (s : State) (first : Nat) (value : Value) (w : Wire) : Prop :=
  match value with
  | .void => w = .void
  | .bool b => w = .bool b
  | .i32 n => w = .i32 n
  | .i64 n => w = .i64 n
  | .f32 pattern => w = .f32 pattern
  | .f64 pattern => w = .f64 pattern
  | .enumerator n => w = .i64 n ∨ w = .i32 n.toInt32 ∧ n.toInt32.toInt64 = n
  | .object ref => s.Names w ref
  | value => ∃ ref p, s.Names w ref ∧ first ≤ ref.number ∧
      s.heap.payloadAt ref.number = some p ∧ p.Copies value

/-- A boundary value stands for the same as long as its handle and its object stay. -/
theorem Shows.kept {first' : Nat} (shows : s.Shows first value w) (le : first' ≤ first)
    (bound : ∀ h ref, s.handles.bound? h = some ref → t.handles.bound? h = some ref)
    (kept : ∀ h ref p, s.handles.bound? h = some ref → first ≤ ref.number →
      s.heap.payloadAt ref.number = some p → t.heap.payloadAt ref.number = some p) :
    t.Shows first' value w := by
  have copied : (∃ ref p, s.Names w ref ∧ first ≤ ref.number ∧
        s.heap.payloadAt ref.number = some p ∧ p.Copies value) →
      ∃ ref p, t.Names w ref ∧ first' ≤ ref.number ∧ t.heap.payloadAt ref.number = some p ∧
        p.Copies value := by
    rintro ⟨ref, p, ⟨h, hw, hb⟩, new, hp, copies⟩
    exact ⟨ref, p, ⟨h, hw, bound h ref hb⟩, Nat.le_trans le new, kept h ref p hb new hp, copies⟩
  cases value with
  | object ref =>
    obtain ⟨h, hw, hb⟩ := shows
    exact ⟨h, hw, bound h ref hb⟩
  | str | array | set | dict => exact copied shows
  | _ => exact shows

theorem Shows.from {first' : Nat} (shows : s.Shows first value w) (le : first' ≤ first) :
    s.Shows first' value w :=
  shows.kept le (fun _ _ hb => hb) fun _ _ _ _ _ hp => hp

/-- Lending a value keeps all live handles. -/
theorem Lent.bound_of {h : Handle} {ref : Ref} (lent : s.Lent w t)
    (hb : s.handles.bound? h = some ref) : t.handles.bound? h = some ref := by
  rcases lent.bound with ⟨_, same⟩ | ⟨new, _, _, fresh, others⟩
  · rw [same, hb]
  · rw [others, if_neg, hb]
    rintro rfl
    cases fresh.symm.trans hb

/-- Handing out a value leaves the number of live handles of other objects alone. -/
theorem Lent.share_eq (lent : s.Lent w t) (table : s.handles.WellFormed) {n : Nat}
    (other : ∀ h ref, w.handle? = some h → t.handles.bound? h = some ref → ref.number ≠ n) :
    t.handles.share n = s.handles.share n := by
  refine table.share_congr lent.sound.table fun k ref number => ?_
  rcases lent.bound with ⟨_, same⟩ | ⟨h, new, handle, fresh, bound⟩
  · rw [same]
  · by_cases here : k = h
    · subst here
      refine ⟨fun later => absurd number (other k ref handle later), fun earlier => ?_⟩
      cases fresh.symm.trans earlier
    · rw [bound, if_neg here]

/-- Lending another value keeps what a boundary value stands for. -/
theorem Shows.lent (shows : s.Shows first value w) {w' : Wire} (lent : s.Lent w' t) :
    t.Shows first value w :=
  shows.kept (Nat.le_refl first) (fun _ _ => lent.bound_of) fun _ _ _ _ _ hp =>
    lent.grown.payloadAt_eq hp

theorem SoundWith.registry_wellFormed {made : List Nat} (sound : s.SoundWith made) :
    s.registry.WellFormed := by
  rcases sound.model with registered | ⟨unregistered, _⟩
  · rw [registered.registry_eq]
    exact Registry.wellFormed_empty.load TaskModel.load_model
  · rw [unregistered.registry_eq]
    exact Registry.wellFormed_empty

end State

/-! ### Handing out -/

namespace Op

open State

variable {s t : State} {n : Nat} {value : Value} {ty : Ty}

theorem issue_exact (table : s.handles.WellFormed) (ref : Ref) :
    (issue ref).Meets s
      (fun h t => s.Grants 1 ∧ s.Spends 1 t ∧ t.handles.bound? h = some ref ∧
        t.heap = s.heap.retain ref) fun _ t => ¬ s.Grants 1 ∧ t.handles = s.handles := by
  unfold Meets
  rw [run_issue]
  rcases table.issue_exact s.options.maxLiveHandles ref with
    ⟨h, handles, issued, granted, room, live⟩ | ⟨cause, refused, denied⟩
  · have gives := table.issue_gives issued
    rw [issued]
    refine ⟨granted, ⟨room, live, rfl⟩, ?_, rfl⟩
    simp [State.granted, gives.bound?_eq table (table.issue issued)]
  · rw [refused]
    exact ⟨denied, rfl⟩

/-- A payload reaches the caller as a handle of a new object. -/
theorem issueNew_places (table : s.handles.WellFormed) (tag : Tag) (p : Payload) :
    (issueNew tag p).Meets s
      (fun h t => s.Grants 1 ∧ s.Spends 1 t ∧
        ∃ ref, t.handles.bound? h = some ref ∧ s.heap.objects.length ≤ ref.number ∧
          t.heap.payloadAt ref.number = some p)
      fun _ t => ¬ s.Grants 1 ∧ t.handles = s.handles := by
  refine meets_run (run_create s tag p) ?_
  refine (issue_exact (s := s.withNew tag p) table _).ok_imp ?_
  rintro h t ⟨granted, spends, bound, heap_eq⟩
  refine ⟨granted, ⟨spends.room_eq, spends.live_eq, spends.options_eq⟩, _, bound, Nat.le_refl _, ?_⟩
  have kept := Heap.payloadAt_retainAll (s.withNew tag p).heap [⟨s.heap.objects.length, tag⟩]
    s.heap.objects.length
  rw [heap_eq]
  exact kept.trans (payloadAt_withNew s tag p)

/-- A copy reaches the caller as a handle of a new object. -/
theorem issueNew_exact (table : s.handles.WellFormed) (tag : Tag) {p : Payload}
    (copies : p.Copies value) :
    (issueNew tag p).Meets s
      (fun h t => s.Grants 1 ∧ s.Spends 1 t ∧
        ∃ ref p, t.Names (.handle h) ref ∧ s.heap.objects.length ≤ ref.number ∧
          t.heap.payloadAt ref.number = some p ∧ p.Copies value)
      fun _ t => ¬ s.Grants 1 ∧ t.handles = s.handles := by
  refine (issueNew_places table tag p).ok_imp ?_
  rintro h t ⟨granted, spends, ref, bound, new, held⟩
  exact ⟨granted, spends, ref, p, ⟨h, rfl, bound⟩, new, held, copies⟩

/-- Handing out gives the caller the value exactly when it is passable and there is a handle for
it. -/
def Gives (op : Op Wire) (s : State) (value : Value) : Prop :=
  op.Meets s
    (fun w t => (value.Passable ∧ s.Grants value.width) ∧ s.Spends value.width t ∧
      t.Shows s.heap.objects.length value w)
    fun _ t => ¬ (value.Passable ∧ s.Grants value.width) ∧ t.handles = s.handles

/-- Handing out gives the caller the value exactly when it is passable. -/
def Delivers (op : Op Wire) (s : State) (n : Nat) (value : Value) : Prop :=
  op.Meets s (fun w t => value.Passable ∧ t.Ready n ∧ t.Shows s.heap.objects.length value w)
    fun _ _ => ¬ value.Passable

/-- With room to spare only the value decides. -/
theorem Gives.delivers {op : Op Wire} (gives : op.Gives s value) (ready : s.Ready (n + 1)) :
    op.Delivers s n value := by
  have enough : s.Ready (n + value.width) := ready.covers value
  refine Meets.imp gives ?_ fun _ _ failed passable => failed.1 ⟨passable, enough.grants⟩
  rintro w t ⟨⟨passable, _⟩, spends, shows⟩
  exact ⟨passable, enough.spent spends, shows⟩

/-- A value that stands for itself is handed out as it is. -/
theorem gives_pure {w : Wire} (plain : value.width = 0)
    (shows : s.Shows s.heap.objects.length value w) : (pure w : Op Wire).Gives s value := by
  have other : ∀ text, value ≠ .str text := by
    rintro text rfl
    cases plain
  refine meets_pure ⟨⟨Value.passable_of_not_str other, ?_⟩, ?_, shows⟩
  · rw [plain]
    exact .inl rfl
  · rw [plain]
    exact .refl s

/-- A text is handed out exactly when it is clean and there is a handle for it. -/
theorem issueText_gives (table : s.handles.WellFormed) (text : String) :
    (issueText text).Meets s
      (fun h t => (Text.Clean text ∧ s.Grants 1) ∧ s.Spends 1 t ∧
        t.Shows s.heap.objects.length (.str text) (.handle h))
      fun _ t => ¬ (Text.Clean text ∧ s.Grants 1) ∧ t.handles = s.handles := by
  by_cases clean : Text.Clean text
  · have checked : s.run (check (Text.checkNul text)) = (.ok text, s) := by
      rw [run_check, Text.checkNul_eq_ok_iff.mpr ⟨clean, rfl⟩]
      rfl
    have copies : (Payload.text text).Copies (.str text) := rfl
    refine meets_run checked ((issueNew_exact table .string copies).imp ?_ ?_)
    · rintro h t ⟨granted, made⟩
      exact ⟨⟨clean, granted⟩, made⟩
    · rintro e t ⟨denied, same⟩
      exact ⟨fun both => denied both.2, same⟩
  · cases checked : Text.checkNul text with
    | ok content => exact absurd (Text.checkNul_eq_ok_iff.mp checked).1 clean
    | error fault =>
      unfold issueText
      rw [checked]
      exact meets_fail_bind ⟨fun both => clean both.1, rfl⟩

/-- With room to spare a text is handed out exactly when it is clean. -/
theorem issueText_exact (table : s.handles.WellFormed) (ready : s.Ready (n + 1)) (text : String) :
    (issueText text).Meets s
      (fun h t => Text.Clean text ∧ t.Ready n ∧
        t.Shows s.heap.objects.length (.str text) (.handle h))
      fun _ _ => ¬ Text.Clean text := by
  refine (issueText_gives table text).imp ?_ fun _ _ failed clean => failed.1 ⟨clean, ready.grants⟩
  rintro h t ⟨⟨clean, _⟩, spends, shows⟩
  exact ⟨clean, ready.spent spends, shows⟩

theorem text_gives (table : s.handles.WellFormed) (text : String) :
    (issueText text >>= fun h => pure (Wire.handle h)).Gives s (.str text) := by
  unfold Gives
  rw [Value.passable_str_iff]
  exact (issueText_gives table text).bind fun h t made => meets_pure made

theorem object_gives (table : s.handles.WellFormed) (ref : Ref) :
    (issue ref >>= fun h => pure (Wire.handle h)).Gives s (.object ref) := by
  have passable : (Value.object ref).Passable :=
    Value.passable_of_not_str fun _ same => by cases same
  have issued : (issue ref).Meets s
      (fun h t => s.Grants 1 ∧ s.Spends 1 t ∧ t.handles.bound? h = some ref)
      fun _ t => ¬ ((Value.object ref).Passable ∧ s.Grants 1) ∧ t.handles = s.handles := by
    refine (issue_exact table ref).imp ?_ ?_
    · rintro h t ⟨granted, spends, bound, _⟩
      exact ⟨granted, spends, bound⟩
    · rintro e t ⟨denied, same⟩
      exact ⟨fun both => denied both.2, same⟩
  exact issued.bind fun h t ⟨granted, spends, bound⟩ =>
    meets_pure ⟨⟨passable, granted⟩, spends, h, rfl, bound⟩

/-- A collection is copied. -/
theorem collection_gives (table : s.handles.WellFormed) {made : Except Fault Collection}
    {c : Collection} (made_eq : made = .ok c)
    (entries_eq : Collection.entriesOf? value = some (c.kind, c.entries)) :
    (check made >>= fun c => issueCollection c >>= fun h => pure (Wire.handle h)).Gives s
      value := by
  have copies : (Payload.collection c).Copies value := entries_eq
  have issued : (issueCollection c).Meets s
      (fun h t => (value.Passable ∧ s.Grants value.width) ∧ s.Spends value.width t ∧
        t.Shows s.heap.objects.length value (.handle h))
      fun _ t => ¬ (value.Passable ∧ s.Grants value.width) ∧ t.handles = s.handles := by
    cases value with
    | array | set | dict =>
      refine (issueNew_exact table c.kind.tag copies).imp ?_ ?_
      · rintro h t ⟨granted, made⟩
        exact ⟨⟨Value.passable_of_not_str (fun _ same => by cases same), granted⟩, made⟩
      · rintro e t ⟨denied, same⟩
        exact ⟨fun both => denied both.2, same⟩
    | _ => cases entries_eq
  subst made_eq
  exact meets_run (run_check (.ok c)) (issued.bind fun h t made => meets_pure made)

theorem enumeratorOut_gives (sound : s.Sound) {id : EnumId} {d : EnumDescriptor} {m : Int64}
    (found : s.registry.enum? id = some d) (declared : d.contains m) :
    (enumeratorOut id m).Gives s (.enumerator m) := by
  have checked : s.run (check (s.registry.checkEnumerator id m)) = (.ok m, s) := by
    rw [run_check, Registry.checkEnumerator_eq_ok_iff.mpr ⟨rfl, d, found, declared⟩]
    rfl
  refine meets_get (meets_run checked ?_)
  cases backing : d.backing with
  | i64 =>
    have kind_eq : s.registry.kindOf (.enumeration id) = .i64 := by
      simp [Registry.kindOf, found, backing]
    rw [kind_eq]
    exact gives_pure rfl (.inl rfl)
  | i32 =>
    have kind_eq : s.registry.kindOf (.enumeration id) = .i32 := by
      simp [Registry.kindOf, found, backing]
    rw [kind_eq]
    have allowed := sound.registry_wellFormed.enums_allowed d (List.mem_of_getElem? found)
    exact gives_pure rfl (.inr ⟨rfl, allowed.toInt32_roundtrip backing declared⟩)

/-- A value of its declared type reaches the caller. -/
theorem outbound_gives (sound : s.Sound) (typed : s.registry.HasType ty value) :
    (outbound value ty).Gives s value := by
  have copied : (Collection.declared? ty).isSome →
      (check (Collection.snapshot value ty) >>= fun c =>
        issueCollection c >>= fun h => pure (Wire.handle h)).Gives s value := by
    intro collection
    obtain ⟨c, snapshot_eq, _⟩ := Collection.snapshot_wellTyped collection typed
    exact collection_gives sound.table snapshot_eq
      (Collection.snapshot_eq_ok_iff.mp snapshot_eq).1
  cases typed with
  | void | bool | i32 | i64 | f32 | f64 => exact gives_pure rfl rfl
  | str text => exact text_gives sound.table text
  | enumerator found declared => exact enumeratorOut_gives sound found declared
  | object tag_eq =>
    simp only [outbound, tag_eq, ne_eq, not_true_eq_false, if_false]
    exact object_gives sound.table _
  | array | set | dict => exact copied rfl

theorem outboundUntyped_gives (sound : s.Sound) (value : Value) :
    (outboundUntyped value).Gives s value := by
  have copied : (Collection.entriesOf? value).isSome →
      (check (Collection.untypedSnapshot value) >>= fun c =>
        issueCollection c >>= fun h => pure (Wire.handle h)).Gives s value := by
    intro collection
    obtain ⟨⟨kind, entries⟩, entries_eq⟩ := Option.isSome_iff_exists.mp collection
    have made : Collection.untypedSnapshot value = .ok { kind, isSealed := true, entries } := by
      rw [Collection.untypedSnapshot, entries_eq]
    exact collection_gives sound.table made entries_eq
  cases value with
  | str text => exact text_gives sound.table text
  | object ref => exact object_gives sound.table ref
  | array | set | dict => exact copied rfl
  | enumerator => exact gives_pure rfl (.inl rfl)
  | _ => exact gives_pure rfl rfl

theorem outboundAs_gives (sound : s.Sound) {declared : Option Ty}
    (typed : ∀ ty, declared = some ty → s.registry.HasType ty value) :
    (outboundAs value declared).Gives s value := by
  cases declared with
  | none => exact outboundUntyped_gives sound value
  | some ty => exact outbound_gives sound (typed ty rfl)

/-- A value that is handed out is lent, and what is refused is refused for want of a handle or
because of the value. -/
theorem outboundAs_lends (sound : s.Sound) (carries : s.heap.Carries value.refs)
    {declared : Option Ty} (typed : ∀ ty, declared = some ty → s.registry.HasType ty value) :
    (outboundAs value declared).Meets s
      (fun w t => (value.Passable ∧ s.Grants value.width) ∧ s.Spends value.width t ∧
        t.Shows s.heap.objects.length value w ∧ s.Lent w t)
      fun e t => ¬ (value.Passable ∧ s.Grants value.width) ∧ t.handles = s.handles ∧
        s.Refused e t := by
  have gives := outboundAs_gives sound typed
  refine (Meets.and gives (outboundAs_meets sound carries declared)).imp ?_ ?_
  · rintro w t ⟨⟨granted, spends, shows⟩, lent⟩
    exact ⟨granted, spends, shows, lent⟩
  · rintro e t ⟨⟨denied, same⟩, refused⟩
    exact ⟨denied, same, refused⟩

/-- With room to spare a value reaches the caller exactly when it is passable. -/
theorem outboundAs_delivers (sound : s.Sound) (ready : s.Ready (n + 1))
    (carries : s.heap.Carries value.refs) {declared : Option Ty}
    (typed : ∀ ty, declared = some ty → s.registry.HasType ty value) :
    (outboundAs value declared).Meets s
      (fun w t => value.Passable ∧ t.Ready n ∧ t.Shows s.heap.objects.length value w ∧ s.Lent w t)
      fun _ _ => ¬ value.Passable := by
  have delivers : (outboundAs value declared).Delivers s n value :=
    (outboundAs_gives sound typed).delivers ready
  refine (Meets.and delivers (outboundAs_meets sound carries declared)).imp ?_
    fun _ _ failed => failed.1
  rintro w t ⟨⟨passable, left, shows⟩, lent⟩
  exact ⟨passable, left, shows, lent⟩

/-- Taking a value back makes at most as much room as the value took. -/
theorem discard_room (table : s.handles.WellFormed) (w : Wire) :
    (discard w).Meets s
      (fun _ t => t.handles.room + t.handles.live ≤ s.handles.room + s.handles.live)
      fun _ _ => False := by
  unfold discard
  cases w.handle? with
  | none => exact meets_pure (Nat.le_refl _)
  | some h =>
    have ended : (release h none).Meets s
        (fun _ t => t.handles.room + t.handles.live ≤ s.handles.room + s.handles.live)
        fun _ t => t.handles = s.handles := by
      unfold Meets
      rw [run_release]
      cases released : s.handles.release h none with
      | ok found => exact table.room_release released
      | error cause => exact handles_noticed s cause
    refine (ended.bind fun _ t less => meets_pure less).tryCatch fun e t same => ?_
    exact meets_pure (by rw [same])

end Op

/-- A request that was refused leaves as many handles live, so it leaves no more room. -/
theorem State.Refused.room_le {s t : State} {e : Failure} (refused : s.Refused e t)
    (table : s.handles.WellFormed)
    (total : t.handles.room + t.handles.live ≤ s.handles.room + s.handles.live) :
    t.handles.room ≤ s.handles.room := by
  have live := (table.counts_of_bound_eq refused.sound.table refused.bound).1
  omega

end ObjectBoundary
