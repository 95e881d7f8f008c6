import ObjectBoundary.Marshal.Inbound
import ObjectBoundary.Marshal.Outbound
import ObjectBoundary.Proofs.Handle.History
import ObjectBoundary.Proofs.Marshal.Typing
import ObjectBoundary.Proofs.Model.WellFormed
import ObjectBoundary.Proofs.Tasks.Registered

/-!
# Values that go out and come back

A value that was handed out under a declared type is of the boundary kind of that type, and reading
it back under the same type gives what converting the value to the type gives. The copies that are
made on the way out have the content of what they copy.
-/

namespace ObjectBoundary

/-- The tables that uses make of an empty one. -/
def HandleTable.Used (table : HandleTable) : Prop :=
  ∃ (s : State) (uses : List TableUse),
    (({ s with handles := {} } : State).afterUses uses).2.handles = table

theorem HandleTable.Used.wellFormed {table : HandleTable} (used : table.Used) :
    table.WellFormed := by
  obtain ⟨s, uses, rfl⟩ := used
  exact (remembers_afterUses s uses).1

/-! ### Boundary words -/

namespace Wire

@[simp] theorem kind?_void : Wire.void.kind? = some .void := rfl

@[simp] theorem kind?_bool (b : Bool) : (Wire.bool b).kind? = some .bool := rfl

@[simp] theorem kind?_i32 (n : Int32) : (Wire.i32 n).kind? = some .i32 := rfl

@[simp] theorem kind?_i64 (n : Int64) : (Wire.i64 n).kind? = some .i64 := rfl

@[simp] theorem kind?_f32 (pattern : UInt32) : (Wire.f32 pattern).kind? = some .f32 := rfl

@[simp] theorem kind?_f64 (pattern : UInt64) : (Wire.f64 pattern).kind? = some .f64 := rfl

@[simp] theorem kind?_handle (h : Handle) : (Wire.handle h).kind? = some .handle := rfl

@[simp] theorem boolBits_bool (b : Bool) : (Wire.bool b).boolBits = b := by cases b <;> rfl

@[simp] theorem i32Bits_i32 (n : Int32) : (Wire.i32 n).i32Bits = n := by simp [i32, i32Bits]

@[simp] theorem i64Bits_i64 (n : Int64) : (Wire.i64 n).i64Bits = n := by simp [i64, i64Bits]

@[simp] theorem f32Bits_f32 (pattern : UInt32) : (Wire.f32 pattern).f32Bits = pattern := by
  simp [f32, f32Bits]

@[simp] theorem f64Bits_f64 (pattern : UInt64) : (Wire.f64 pattern).f64Bits = pattern := rfl

@[simp] theorem handleBits_handle (h : Handle) : (Wire.handle h).handleBits = h := rfl

theorem handle?_eq_none {w : Wire} {kind : Kind} (h : w.kind? = some kind)
    (plain : kind ≠ .handle) : w.handle? = none := by
  simp [handle?, h, plain]

end Wire

/-! ### Copies of collections -/

/-- If the value is a dictionary, then no two of its keys are the same. -/
def Value.KeysApart (value : Value) : Prop :=
  ∀ entries, value = .dict entries →
    (entries.map (·.1)).Pairwise fun a b => a.same b = false

namespace Collection

/-- The entry for a pair of a dictionary. -/
def pairEntry (pair : Value × Value) : Entry := ⟨some pair.1, pair.2⟩

theorem putEntry_new {key value : Value} {entries : List Entry}
    (new : ∀ entry ∈ entries, entry.hasKey key = false) :
    putEntry key value entries = entries ++ [pairEntry (key, value)] := by
  induction entries with
  | nil => rfl
  | cons entry entries ih =>
    have other : entry.hasKey key = false := new entry (by simp)
    have rest := ih fun e he => new e (by simp [he])
    simp only [putEntry, other, Bool.false_eq_true, if_false, rest, List.cons_append]

theorem foldl_putEntry {pairs : List (Value × Value)} {start : List Entry}
    (apart : (pairs.map (·.1)).Pairwise fun a b => a.same b = false)
    (new : ∀ pair ∈ pairs, ∀ entry ∈ start, entry.hasKey pair.1 = false) :
    pairs.foldl (fun entries (key, value) => putEntry key value entries) start =
      start ++ pairs.map pairEntry := by
  induction pairs generalizing start with
  | nil => simp
  | cons pair pairs ih =>
    obtain ⟨key, value⟩ := pair
    rw [List.map_cons, List.pairwise_cons] at apart
    have first : putEntry key value start = start ++ [pairEntry (key, value)] :=
      putEntry_new (new (key, value) (by simp))
    simp only [List.foldl_cons, first]
    rw [ih apart.2]
    · simp
    · intro other member entry hentry
      rcases List.mem_append.mp hentry with earlier | last
      · exact new other (by simp [member]) entry earlier
      · rw [List.mem_singleton.mp last]
        exact apart.1 other.1 (List.mem_map_of_mem member)

/-- A copy of a dictionary with distinct keys holds its pairs. -/
theorem copyPairs_nil {pairs : List (Value × Value)}
    (apart : (pairs.map (·.1)).Pairwise fun a b => a.same b = false) :
    copyPairs [] pairs = pairs.map pairEntry := by
  rw [copyPairs_eq_foldl, foldl_putEntry apart (by simp), List.nil_append]

/-- A sealed copy of a value of a declared type converts to that type as the value itself does. -/
theorem conform_snapshot {value : Value} {ty : Ty} {c : Collection} (r : Registry)
    (apart : value.KeysApart)
    (copied : snapshot value ty = .ok c) :
    ty.tag? = some c.kind.tag ∧ r.conform ty c.toValue = r.conform ty value := by
  unfold snapshot at copied
  cases ty with
  | array elem =>
    cases value <;> cases copied
    case array items => exact ⟨rfl, by simp [toValue, Function.comp_def, Entry.item]⟩
  | set elem =>
    cases value <;> cases copied
    case set items =>
      refine ⟨rfl, ?_⟩
      simp only [toValue, Value.copyMembers_nil, List.map_map, Function.comp_def, Entry.item, List.map_id',
        Registry.conform]
      have after : ∀ x : Except Fault (List Value),
          x.map (fun made => Value.set (Value.distinct made)) = (x.map Value.distinct).map .set := by
        intro x
        cases x <;> rfl
      rw [after, after, Value.map_distinct_mapM]
  | dict key elem =>
    cases value <;> cases copied
    case dict entries =>
      refine ⟨rfl, ?_⟩
      simp [toValue, copyPairs_nil (apart entries rfl), pairEntry, List.filterMap_map, Function.comp_def]
  | _ => cases copied

end Collection

/-! ### Texts and enumerators -/

theorem Text.checkNul_eq_ok {text content : String} (h : checkNul text = .ok content) :
    content = text := by
  unfold checkNul at h
  split at h
  · cases h
  · exact (Except.ok.inj h).symm

theorem EnumDescriptor.Allowed.toInt32_roundtrip {d : EnumDescriptor} (allowed : d.Allowed)
    (backing : d.backing = .i32) {n : Int64} (declared : d.contains n) :
    n.toInt32.toInt64 = n := by
  obtain ⟨v, member, same⟩ := List.any_eq_true.mp declared
  have fits := allowed.values_fit v member
  rw [backing, beq_iff_eq.mp same] at fits
  simp only [Backing.contains, Bool.and_eq_true, decide_eq_true_eq] at fits
  apply Int64.toInt.inj
  simp only [Int32.toInt_toInt64, Int64.toInt_toInt32]
  rw [Int.bmod_eq_of_le] <;> omega

namespace Op

variable {s t : State} {value : Value} {ty : Ty} {w : Wire} {ref : Ref} {h : Handle}

/-- A value has been handed out: the boundary value is of the kind of its type, a handle in it
resolves, and reading it back is converting the value. -/
structure Returns (s : State) (value : Value) (ty : Ty) (w : Wire) (t : State) : Prop where
  kind : w.kind? = some (s.registry.kindOf ty)
  resolves : ∀ h, w.handle? = some h →
    ∃ tag ref, ty.tag? = some tag ∧ t.handles.resolve h (some tag) = .ok ref
  back : t.run (inbound w ty) = ((s.registry.conform ty value).mapError .fault, t)

/-- A value that is read back from the bits alone. -/
theorem returns_plain {kind : Kind} (hk : w.kind? = some kind) (plain : kind ≠ .handle)
    (kind_eq : s.registry.kindOf ty = kind)
    (back : s.run (inbound w ty) = ((s.registry.conform ty value).mapError .fault, s)) :
    Returns s value ty w s := by
  refine ⟨by rw [hk, kind_eq], fun h hh => ?_, back⟩
  rw [Wire.handle?_eq_none hk plain] at hh
  cases hh

/-- A value of a type that crosses the boundary as handles is read behind its handle. -/
theorem run_inbound_handle {tag : Tag} (tagged : ty.tag? = some tag) (h : Handle) :
    s.run (inbound (.handle h) ty) =
      s.run (resolve h (some tag) >>= fun ref => typedContentOf ref ty) := by
  rw [← tagged]
  cases ty with
  | string | interface | array | dict | set =>
    simp only [inbound, Op.kindOf, Wire.kind?_handle, Registry.kindOf, Wire.handleBits_handle,
      State.run_bind, State.run_pure, State.run_get, ne_eq, not_true, if_false]
  | _ => cases tagged

/-- A handle that is bound to an object with the content that the value converts to. -/
theorem returns_handle (kind_eq : s.registry.kindOf ty = .handle) (tag_eq : ty.tag? = some ref.tag)
    (bound : t.handles.bound? h = some ref)
    (content : t.run (typedContentOf ref ty) =
      ((s.registry.conform ty value).mapError .fault, t)) :
    Returns s value ty (.handle h) t := by
  have resolves : t.handles.resolve h (some ref.tag) = .ok ref :=
    HandleTable.resolve_eq_ok_iff.mpr ⟨bound, by simp⟩
  refine ⟨by rw [kind_eq, Wire.kind?_handle], ?_, ?_⟩
  · intro k hk
    cases hk
    exact ⟨ref.tag, ref, tag_eq, resolves⟩
  · have found : t.run (resolve h (some ref.tag)) = (.ok ref, t) := by
      rw [State.run_resolve, resolves]
    rw [← content, run_inbound_handle tag_eq, State.run_bind, found]

/-! ### New objects and their content -/

theorem issue_binds (wf : s.handles.WellFormed) (ref : Ref) :
    (issue ref).Meets s (fun h t => t.handles.bound? h = some ref ∧ t.registry = s.registry ∧
      t.heap = s.heap.retain ref) fun _ _ => True := by
  unfold Meets
  rw [State.run_issue]
  cases issued : s.handles.issue s.options.maxLiveHandles ref with
  | error cause => trivial
  | ok made =>
    have gives := wf.issue_gives issued
    exact ⟨by simp [State.granted, gives.bound?_eq wf (wf.issue issued)], rfl, rfl⟩

theorem issueNew_binds (wf : s.handles.WellFormed) (tag : Tag) (p : Payload) :
    (issueNew tag p).Meets s (fun h t => ∃ ref, t.handles.bound? h = some ref ∧ ref.tag = tag ∧
      t.registry = s.registry ∧ t.heap.payloadAt ref.number = some p) fun _ _ => True := by
  refine meets_run (State.run_create s tag p) ?_
  refine (issue_binds (s := s.withNew tag p) wf _).ok_imp ?_
  rintro h t ⟨bound, registry_eq, heap_eq⟩
  refine ⟨_, bound, rfl, registry_eq, ?_⟩
  have kept := Heap.payloadAt_retainAll (s.withNew tag p).heap [⟨s.heap.objects.length, tag⟩]
    s.heap.objects.length
  rw [heap_eq]
  exact kept.trans (State.payloadAt_withNew s tag p)

theorem run_payload {p : Payload} (hp : s.heap.payloadAt ref.number = some p) :
    s.run (payload ref) = (.ok p, s) := by
  simp only [payload, State.run_bind, State.run_get, Heap.payload?_eq_payloadAt, hp]
  rfl

theorem run_check {α : Type} (x : Except Fault α) :
    s.run (check x) = (x.mapError .fault, s) := by
  cases x <;> rfl

/-- Whatever becomes of a request that fails, it goes on only from a check that passes. -/
theorem meets_check {α β : Type} {x : Except Fault α} {next : α → Op β}
    {ok : β → State → Prop} (h : ∀ a, x = .ok a → (next a).Meets s ok fun _ _ => True) :
    (check x >>= next).Meets s ok fun _ _ => True := by
  cases x with
  | ok a => exact h a rfl
  | error fault => exact meets_fail_bind trivial

theorem run_typedContentOf_text {text : String} (tag_eq : ref.tag = .string)
    (hp : s.heap.payloadAt ref.number = some (.text text)) (ty : Ty) :
    s.run (typedContentOf ref ty) = (.ok (.str text), s) := by
  simp only [typedContentOf, contentOf, tag_eq, textOf, State.run_bind, run_payload hp,
    State.run_pure]

theorem run_typedContentOf_object {id : InterfaceId} (tag_eq : ref.tag = .interface id) (ty : Ty) :
    s.run (typedContentOf ref ty) = (.ok (.object ref), s) := by
  simp only [typedContentOf, contentOf, tag_eq, State.run_bind, State.run_pure]

theorem run_typedContentOf_collection {c : Collection} (tag_eq : ref.tag = c.kind.tag)
    (hp : s.heap.payloadAt ref.number = some (.collection c)) (ty : Ty) :
    s.run (typedContentOf ref ty) = ((s.registry.conform ty c.toValue).mapError .fault, s) := by
  have content : s.run (contentOf ref) = (.ok c.toValue, s) := by
    unfold contentOf
    cases kind : c.kind <;>
      simp only [tag_eq, kind, CollectionKind.tag, State.run_bind, run_payload hp, State.run_pure]
  unfold typedContentOf
  cases kind : c.kind <;>
    simp only [tag_eq, kind, CollectionKind.tag, State.run_bind, content, State.run_get, run_check]

/-! ### One lemma for each way out -/

theorem issueText_returns (wf : s.handles.WellFormed) (text : String) :
    (do return .handle (← issueText text) : Op Wire).Meets s
      (fun w t => Returns s (.str text) .string w t) fun _ _ => True := by
  have issued : (issueText text).Meets s (fun h t => ∃ ref, t.handles.bound? h = some ref ∧
      ref.tag = .string ∧ t.registry = s.registry ∧
      t.heap.payloadAt ref.number = some (.text text)) fun _ _ => True := by
    refine meets_check fun content same => ?_
    rw [Text.checkNul_eq_ok same]
    exact issueNew_binds wf _ _
  refine issued.bind ?_
  rintro h t ⟨ref, bound, tag_eq, _, hp⟩
  refine meets_pure (returns_handle rfl (by rw [tag_eq]; rfl) bound ?_)
  exact run_typedContentOf_text tag_eq hp _

theorem object_returns (wf : s.handles.WellFormed) {id : InterfaceId}
    (tag_eq : ref.tag = .interface id) :
    (do return .handle (← issue ref) : Op Wire).Meets s
      (fun w t => Returns s (.object ref) (.interface id) w t) fun _ _ => True := by
  refine (issue_binds wf ref).bind ?_
  rintro h t ⟨bound, _, _⟩
  refine meets_pure (returns_handle rfl (by rw [tag_eq]; rfl) bound ?_)
  rw [run_typedContentOf_object tag_eq, (Registry.HasType.object tag_eq).conform_eq]
  rfl

theorem snapshot_returns (wf : s.handles.WellFormed) (kind_eq : s.registry.kindOf ty = .handle)
    (apart : value.KeysApart) :
    (do
      let c ← check (Collection.snapshot value ty)
      return .handle (← issueCollection c) : Op Wire).Meets s
      (fun w t => Returns s value ty w t) fun _ _ => True := by
  refine meets_check fun c copied => ?_
  obtain ⟨tag_eq, conform_eq⟩ := Collection.conform_snapshot s.registry apart copied
  refine (issueNew_binds wf c.kind.tag (.collection c)).bind ?_
  rintro h t ⟨ref, bound, same_tag, registry_eq, hp⟩
  refine meets_pure (returns_handle kind_eq (by rw [same_tag, tag_eq]) bound ?_)
  rw [run_typedContentOf_collection same_tag hp, registry_eq, conform_eq]

theorem run_inbound_enumerator {kind : Kind} {id : EnumId} {n : Int64} (hk : w.kind? = some kind)
    (kind_eq : s.registry.kindOf (.enumeration id) = kind)
    (bits : (if kind = .i32 then w.i32Bits.toInt64 else w.i64Bits) = n) :
    s.run (inbound w (.enumeration id)) =
      (((s.registry.checkEnumerator id n).map .enumerator).mapError .fault, s) := by
  simp only [inbound, Op.kindOf, hk, State.run_bind, State.run_pure, State.run_get, kind_eq, ne_eq,
    not_true, if_false, bits, run_check]
  cases s.registry.checkEnumerator id n <;> rfl

theorem enumeratorOut_returns (wf : s.registry.WellFormed) {id : EnumId} {n : Int64}
    (conform_eq : s.registry.conform (.enumeration id) value =
      (s.registry.checkEnumerator id n).map .enumerator) :
    (enumeratorOut id n).Meets s (fun w t => Returns s value (.enumeration id) w t)
      fun _ _ => True := by
  refine meets_get (meets_check fun m checked => ?_)
  obtain ⟨rfl, d, found, declared⟩ := Registry.checkEnumerator_eq_ok_iff.mp checked
  have allowed := wf.enums_allowed d (List.mem_of_getElem? found)
  cases backing : d.backing with
  | i32 =>
    have kind_eq : s.registry.kindOf (.enumeration id) = .i32 := by
      simp [Registry.kindOf, found, backing]
    rw [kind_eq]
    refine meets_pure (returns_plain (Wire.kind?_i32 _) (by decide) kind_eq ?_)
    rw [conform_eq]
    refine run_inbound_enumerator (Wire.kind?_i32 _) kind_eq ?_
    simp [allowed.toInt32_roundtrip backing declared]
  | i64 =>
    have kind_eq : s.registry.kindOf (.enumeration id) = .i64 := by
      simp [Registry.kindOf, found, backing]
    rw [kind_eq]
    refine meets_pure (returns_plain (Wire.kind?_i64 _) (by decide) kind_eq ?_)
    rw [conform_eq]
    exact run_inbound_enumerator (Wire.kind?_i64 _) kind_eq (by simp)

theorem run_inbound_i32 (n : Int32) : s.run (inbound (.i32 n) .i32) = (.ok (.i32 n), s) :=
  congrArg (fun m => (Except.ok (Value.i32 m), s)) (Wire.i32Bits_i32 n)

theorem run_inbound_i64 (n : Int64) : s.run (inbound (.i64 n) .i64) = (.ok (.i64 n), s) :=
  congrArg (fun m => (Except.ok (Value.i64 m), s)) (Wire.i64Bits_i64 n)

theorem run_inbound_f32 (pattern : UInt32) :
    s.run (inbound (.f32 pattern) .f32) = (.ok (.f32 pattern), s) :=
  congrArg (fun m => (Except.ok (Value.f32 m), s)) (Wire.f32Bits_f32 pattern)

theorem wrongResult_fails {α : Type} (found : String) (ty : Ty) :
    (wrongResult found ty : Op α).Meets s (fun _ _ => False) fun _ _ => True :=
  meets_get (meets_fail trivial)

theorem outbound_returns (table : s.handles.WellFormed) (registry : s.registry.WellFormed)
    (apart : value.KeysApart) :
    (outbound value ty).Meets s (fun w t => Returns s value ty w t) fun _ _ => True := by
  unfold outbound
  split
  case h_1 => exact meets_pure (returns_plain rfl (by decide) rfl rfl)
  case h_2 b => exact meets_pure (returns_plain rfl (by decide) rfl (by cases b <;> rfl))
  case h_3 n => exact meets_pure (returns_plain rfl (by decide) rfl (run_inbound_i32 n))
  case h_4 n => exact meets_pure (returns_plain rfl (by decide) rfl (run_inbound_i64 n.toInt64))
  case h_5 n => exact meets_pure (returns_plain rfl (by decide) rfl (run_inbound_i64 n))
  case h_6 n => exact meets_pure (returns_plain rfl (by decide) rfl (run_inbound_f32 n))
  case h_7 | h_8 => exact meets_pure (returns_plain rfl (by decide) rfl rfl)
  case h_9 | h_10 | h_11 => exact enumeratorOut_returns registry rfl
  case h_12 text => exact issueText_returns table text
  case h_13 id ref =>
    split
    · exact meets_get ((wrongResult_fails _ _).bind fun _ _ none => none.elim)
    · next tag_eq => exact object_returns table (not_not.mp tag_eq)
  case h_14 | h_15 | h_16 => exact snapshot_returns table rfl apart
  case h_17 => exact (wrongResult_fails _ _).ok_imp fun _ _ none => none.elim

end Op

/-- A value that goes out under a type comes back under that type as the value it converts to, or
is refused for the same reason. -/
theorem State.outbound_inbound_conform {s t : State} {value : Value} {ty : Ty} {w : Wire}
    (models : List Model) (loaded : s.registry = Registry.loadAll {} models)
    (used : s.handles.Used)
    (apart : value.KeysApart)
    (ok : s.run (Op.outbound value ty) = (.ok w, t)) :
    w.kind? = some (s.registry.kindOf ty) ∧
      (∀ h, w.handle? = some h →
        ∃ tag ref, ty.tag? = some tag ∧ t.handles.resolve h (some tag) = .ok ref) ∧
      t.run (Op.inbound w ty) = ((s.registry.conform ty value).mapError .fault, t) ∧
      (s.registry.HasType ty value → t.run (Op.inbound w ty) = (.ok value, t)) := by
  have registry : s.registry.WellFormed := loaded ▸ Registry.wellFormed_empty.loadAll models
  have returns := (Op.outbound_returns used.wellFormed registry apart).ok_of_run ok
  refine ⟨returns.kind, returns.resolves, returns.back, fun typed => ?_⟩
  rw [returns.back, typed.conform_eq]
  rfl

/-- A set that holds one array twice comes back with the array once, its integers widened. -/
theorem State.repeated_member_returns_once :
    let s : State := { registry := Registry.loadAll {} [TaskModel.model] }
    let ty : Ty := .set (.array .i64)
    let w : Wire := .handle (.ofParts 0 1)
    let t := (s.run (Op.outbound (.set [.array [.i32 7], .array [.i32 7]]) ty)).2
    t.run (Op.inbound w ty) = (.ok (.set [.array [.i64 7]]), t) := by
  intro s ty w t
  have ok : s.run (Op.outbound (.set [.array [.i32 7], .array [.i32 7]]) ty) = (.ok w, t) := rfl
  have used : s.handles.Used := ⟨{}, [], rfl⟩
  have apart : (Value.set [.array [.i32 7], .array [.i32 7]]).KeysApart := by
    intro entries absurd
    cases absurd
  exact (outbound_inbound_conform [TaskModel.model] rfl used apart ok).2.2.1

end ObjectBoundary
