import ObjectBoundary.Proofs.Builders

/-!
# What comes in is of its type

Conversion to a declared type is a relation between values that can be read off the type: a number
keeps its value in whatever width, an enumerator is a declared one, arrays and dictionaries are
converted place by place, and of a set the first occurrences are left. A value that comes in is what
its bits say, or what the content behind its handle converts to. Either way it has the type at every
depth, and converting it once more changes nothing.
-/

namespace ObjectBoundary

namespace Value

/-- The number that a value is, in either width. -/
def number? : Value → Option Int
  | .i32 n => some n.toInt
  | .i64 n => some n.toInt
  | _ => none

/-- The number that a value is or that is behind an enumerator. -/
def integer? : Value → Option Int
  | .enumerator n => some n.toInt
  | value => value.number?

end Value

namespace Registry

/-- A value of a type is what another value stands for. -/
def Converts (r : Registry) : Ty → Value → Value → Prop
  | .void, _, made => made = .void
  | .bool, value, made => ∃ b, value = .bool b ∧ made = .bool b
  | .i32, value, made => ∃ n : Int32, value.number? = some n.toInt ∧ made = .i32 n
  | .i64, value, made => ∃ n : Int64, value.number? = some n.toInt ∧ made = .i64 n
  | .f32, value, made => ∃ pattern, value = .f32 pattern ∧ made = .f32 pattern
  | .f64, value, made =>
    ∃ pattern, made = .f64 pattern ∧
      (value = .f64 pattern ∨ ∃ narrow, value = .f32 narrow ∧ pattern = widen narrow)
  | .string, value, made => ∃ text, value = .str text ∧ made = .str text
  | .enumeration id, value, made =>
    ∃ (n : Int64) (d : EnumDescriptor), value.integer? = some n.toInt ∧ made = .enumerator n ∧
      r.enum? id = some d ∧ d.contains n
  | .interface id, value, made =>
    ∃ ref, ref.tag = .interface id ∧ value = .object ref ∧ made = .object ref
  | .array elem, value, made =>
    ∃ items converted, value = .array items ∧ List.Forall₂ (r.Converts elem) items converted ∧
      made = .array converted
  | .set elem, value, made =>
    ∃ items converted, value = .set items ∧ List.Forall₂ (r.Converts elem) items converted ∧
      made = .set (converted.eraseDupsBy Value.same)
  | .dict key elem, value, made =>
    ∃ entries pairs, value = .dict entries ∧ List.Forall₂ (fun entry pair =>
        r.Converts key entry.1 pair.1 ∧ r.Converts elem entry.2 pair.2) entries pairs ∧
      made = .dict pairs

variable {r : Registry} {ty : Ty} {value made : Value}

theorem conform_i32_iff : r.conform .i32 value = .ok made ↔ r.Converts .i32 value made := by
  cases value with
  | i32 n =>
    simp only [conform, Converts, Value.number?, Except.ok.injEq, Option.some.injEq,
      Int32.toInt_inj, exists_eq_left']
    exact eq_comm
  | i64 n =>
    have fits (m : Int32) : Value.narrow? n = some m ↔ n.toInt = m.toInt := by
      rw [Value.narrow?_eq_some_iff, ← Int64.toInt_inj, Int32.toInt_toInt64, eq_comm]
    simp only [conform, Converts, Value.number?, Option.some.injEq, ← fits]
    cases Value.narrow? n with
    | none => simp
    | some m =>
      simp only [Except.ok.injEq, Option.some.injEq, exists_eq_left']
      exact eq_comm
  | _ => simp [conform, Converts, Value.number?]

theorem conform_i64_iff : r.conform .i64 value = .ok made ↔ r.Converts .i64 value made := by
  cases value with
  | i32 n =>
    simp only [conform, Converts, Value.number?, Except.ok.injEq, Option.some.injEq,
      ← Int32.toInt_toInt64, Int64.toInt_inj, exists_eq_left']
    exact eq_comm
  | i64 n =>
    simp only [conform, Converts, Value.number?, Except.ok.injEq, Option.some.injEq,
      Int64.toInt_inj, exists_eq_left']
    exact eq_comm
  | _ => simp [conform, Converts, Value.number?]

/-- A number is admitted as an enumerator exactly when it is a declared one. -/
theorem map_checkEnumerator_iff {id : EnumId} {n : Int64} :
    (r.checkEnumerator id n).map .enumerator = .ok made ↔
      ∃ (m : Int64) (d : EnumDescriptor), n.toInt = m.toInt ∧ made = .enumerator m ∧
        r.enum? id = some d ∧ d.contains m := by
  simp only [map_eq_ok_iff, checkEnumerator_eq_ok_iff, Int64.toInt_inj]
  constructor
  · rintro ⟨m, ⟨rfl, d, found, declared⟩, rfl⟩
    exact ⟨m, d, rfl, rfl, found, declared⟩
  · rintro ⟨m, d, rfl, rfl, found, declared⟩
    exact ⟨n, ⟨rfl, d, found, declared⟩, rfl⟩

theorem conform_enumeration_iff {id : EnumId} :
    r.conform (.enumeration id) value = .ok made ↔ r.Converts (.enumeration id) value made := by
  cases value with
  | i32 n =>
    simp only [conform, Converts, Value.integer?, Value.number?, map_checkEnumerator_iff,
      Int32.toInt_toInt64, Option.some.injEq]
  | i64 n | enumerator n =>
    simp only [conform, Converts, Value.integer?, Value.number?, map_checkEnumerator_iff,
      Option.some.injEq]
  | _ => simp [conform, Converts, Value.integer?, Value.number?]

/-- Conversion gives exactly what the value stands for. -/
theorem conform_eq_ok_iff : r.conform ty value = .ok made ↔ r.Converts ty value made := by
  induction ty generalizing value made with
  | void => simp [conform, Converts, eq_comm]
  | bool | f32 | string => cases value <;> simp [conform, Converts, eq_comm]
  | f64 => cases value <;> simp [conform, Converts, eq_comm]
  | i32 => exact conform_i32_iff
  | i64 => exact conform_i64_iff
  | enumeration id => exact conform_enumeration_iff
  | interface id =>
    cases value with
    | object ref =>
      by_cases tag_eq : ref.tag = .interface id
      · simp [conform, Converts, tag_eq, eq_comm]
      · simp [conform, Converts, tag_eq]
    | _ => simp [conform, Converts]
  | array elem ih =>
    cases value with
    | array items =>
      simp only [conform, Converts, map_eq_ok_iff, mapM_eq_ok_iff, ih, Value.array.injEq]
      constructor
      · rintro ⟨converted, all, rfl⟩
        exact ⟨items, converted, rfl, all, rfl⟩
      · rintro ⟨_, converted, rfl, all, rfl⟩
        exact ⟨converted, all, rfl⟩
    | _ => simp [conform, Converts]
  | set elem ih =>
    cases value with
    | set items =>
      simp only [conform, Converts, map_eq_ok_iff, mapM_eq_ok_iff, ih, Value.set.injEq,
        Value.distinct_eq]
      constructor
      · rintro ⟨converted, all, rfl⟩
        exact ⟨items, converted, rfl, all, rfl⟩
      · rintro ⟨_, converted, rfl, all, rfl⟩
        exact ⟨converted, all, rfl⟩
    | _ => simp [conform, Converts]
  | dict key elem ihKey ihElem =>
    cases value with
    | dict entries =>
      have both (entry pair : Value × Value) :
          (do return (← r.conform key entry.1, ← r.conform elem entry.2) :
            Except Fault (Value × Value)) = .ok pair ↔
            r.Converts key entry.1 pair.1 ∧ r.Converts elem entry.2 pair.2 := by
        simp only [bind_eq_ok_iff, ihKey, ihElem]
        constructor
        · rintro ⟨k, hk, v, hv, same⟩
          cases same
          exact ⟨hk, hv⟩
        · rintro ⟨hk, hv⟩
          exact ⟨pair.1, hk, pair.2, hv, rfl⟩
      simp only [conform, Converts, map_eq_ok_iff, mapM_eq_ok_iff, both, Value.dict.injEq]
      constructor
      · rintro ⟨pairs, all, rfl⟩
        exact ⟨entries, pairs, rfl, all, rfl⟩
      · rintro ⟨_, pairs, rfl, all, rfl⟩
        exact ⟨pairs, all, rfl⟩
    | _ => simp [conform, Converts]

/-- Apart from what becomes nothing, a number stays the number that it is. -/
theorem Converts.integer?_eq (converts : r.Converts ty value made) (some : ty ≠ .void) :
    made.integer? = value.integer? := by
  cases ty with
  | void => exact absurd rfl some
  | i32 | i64 =>
    obtain ⟨n, number, rfl⟩ := converts
    cases value <;> simp_all [Value.integer?, Value.number?]
  | enumeration id =>
    obtain ⟨n, d, integer, rfl, _⟩ := converts
    rw [integer]
    rfl
  | f64 =>
    obtain ⟨pattern, rfl, rfl | ⟨narrow, rfl, _⟩⟩ := converts
    · rfl
    · rfl
  | bool | f32 | string =>
    obtain ⟨content, rfl, rfl⟩ := converts
    rfl
  | interface id =>
    obtain ⟨ref, _, rfl, rfl⟩ := converts
    rfl
  | array elem | set elem | dict key elem =>
    obtain ⟨_, _, rfl, _, rfl⟩ := converts
    rfl

end Registry

namespace State

/-- The object behind the handle in a boundary value, with its payload. -/
def Points (s : State) (w : Wire) (ref : Ref) (p : Payload) : Prop :=
  s.handles.bound? w.handleBits = some ref ∧ s.heap.payloadAt ref.number = some p

/-- What a boundary value says under a declared type. -/
def Says (s : State) (w : Wire) (ty : Ty) (made : Value) : Prop :=
  w.kind? = some (s.registry.kindOf ty) ∧
    match ty with
    | .void => made = .void
    | .bool => made = .bool w.boolBits
    | .i32 => made = .i32 w.i32Bits
    | .i64 => made = .i64 w.i64Bits
    | .f32 => made = .f32 w.f32Bits
    | .f64 => made = .f64 w.f64Bits
    | .enumeration id =>
      ∃ (n : Int64) (d : EnumDescriptor), made = .enumerator n ∧ s.registry.enum? id = some d ∧
        d.contains n ∧
        n.toInt = match d.backing with
          | .i32 => w.i32Bits.toInt
          | .i64 => w.i64Bits.toInt
    | .string => ∃ ref text, s.Points w ref (.text text) ∧ ref.tag = .string ∧ made = .str text
    | .interface id =>
      ∃ ref, s.handles.bound? w.handleBits = some ref ∧ ref.tag = .interface id ∧
        made = .object ref
    | .array _ | .dict _ _ | .set _ =>
      ∃ ref c, s.Points w ref (.collection c) ∧ ty.tag? = some ref.tag ∧
        s.registry.Converts ty c.toValue made

end State

namespace Op

open State

variable {s : State} {w : Wire} {ty : Ty} {made : Value} {ref : Ref}

theorem eq_handle_of_kind? (kind : w.kind? = some .handle) : w = .handle w.handleBits := by
  obtain ⟨tag, bits⟩ := w
  have byte : tag.toNat = 6 := by
    simp only [Wire.kind?, Kind.ofByte?] at kind
    split at kind <;> simp_all
  have same : tag = Kind.handle.byte := UInt8.toNat.inj byte
  rw [same]
  rfl

/-- A boundary value of another kind than that of the type is refused. -/
theorem kind?_of_inbound (taken : (s.run (inbound w ty)).1 = .ok made) :
    w.kind? = some (s.registry.kindOf ty) := by
  cases kind : w.kind? with
  | none =>
    simp only [inbound, Op.kindOf, kind, run_bind] at taken
    cases taken
  | some found =>
    by_cases same : found = s.registry.kindOf ty
    · rw [same]
    · simp only [inbound, Op.kindOf, kind, run_bind, run_pure, run_get, ne_eq, same,
        not_false_eq_true, if_true] at taken
      cases taken

theorem inbound_enumeration_iff {id : EnumId}
    (kind : w.kind? = some (s.registry.kindOf (.enumeration id))) :
    (s.run (inbound w (.enumeration id))).1 = .ok made ↔ s.Says w (.enumeration id) made := by
  have admitted (x : Except Fault Value) :
      x.mapError Failure.fault = .ok made ↔ x = .ok made := by
    cases x <;> simp [Except.mapError]
  rw [run_inbound_enumerator kind rfl rfl, admitted, Registry.map_checkEnumerator_iff, Says,
    and_iff_right kind]
  -- The width of the enumeration decides how many of the bits are read.
  have bits {d : EnumDescriptor} (found : s.registry.enum? id = some d) :
      (if s.registry.kindOf (.enumeration id) = .i32 then w.i32Bits.toInt64 else w.i64Bits).toInt =
        match d.backing with
        | .i32 => w.i32Bits.toInt
        | .i64 => w.i64Bits.toInt := by
    cases backing : d.backing with
    | i32 => simp [Registry.kindOf, found, backing]
    | i64 => simp [Registry.kindOf, found, backing]
  constructor
  · rintro ⟨n, d, number, rfl, found, declared⟩
    exact ⟨n, d, rfl, found, declared, by rw [← number, bits found]⟩
  · rintro ⟨n, d, rfl, found, declared, number⟩
    exact ⟨n, d, by rw [bits found, number], rfl, found, declared⟩

/-- What comes in from behind a handle. -/
theorem inbound_handle_iff {tag : Tag} (tagged : ty.tag? = some tag)
    (kind : w.kind? = some .handle) :
    (s.run (inbound w ty)).1 = .ok made ↔
      ∃ ref, s.handles.bound? w.handleBits = some ref ∧ ref.tag = tag ∧
        (s.run (typedContentOf ref ty)).1 = .ok made := by
  rw [eq_handle_of_kind? kind, run_inbound_handle tagged, run_bind, run_resolve,
    Wire.handleBits_handle]
  cases resolved : s.handles.resolve w.handleBits (some tag) with
  | ok ref =>
    obtain ⟨bound, tag_eq⟩ := HandleTable.resolve_eq_ok_iff.mp resolved
    constructor
    · exact fun taken => ⟨ref, bound, tag_eq tag rfl, taken⟩
    · rintro ⟨found, bound', _, taken⟩
      cases bound.symm.trans bound'
      exact taken
  | error cause =>
    constructor
    · intro taken
      cases taken
    · rintro ⟨ref, bound, tag_eq, _⟩
      have found : s.handles.resolve w.handleBits (some tag) = .ok ref :=
        HandleTable.resolve_eq_ok_iff.mpr ⟨bound, fun _ same => by cases same; exact tag_eq⟩
      cases resolved.symm.trans found

theorem typedContentOf_text_iff (tag_eq : ref.tag = .string) :
    (s.run (typedContentOf ref ty)).1 = .ok made ↔
      ∃ text, s.heap.payloadAt ref.number = some (.text text) ∧ made = .str text := by
  constructor
  · intro taken
    cases held : s.heap.payloadAt ref.number with
    | none =>
      simp only [typedContentOf, contentOf, tag_eq, textOf, payload, run_bind, run_get,
        Heap.payload?_eq_payloadAt, held] at taken
      cases taken
    | some p =>
      cases p with
      | text text =>
        rw [run_typedContentOf_text tag_eq held] at taken
        cases taken
        exact ⟨text, rfl, rfl⟩
      | _ =>
        simp only [typedContentOf, contentOf, tag_eq, textOf, run_bind, run_payload held] at taken
        cases taken
  · rintro ⟨text, held, rfl⟩
    rw [run_typedContentOf_text tag_eq held]

theorem typedContentOf_collection_iff {kind : CollectionKind} (tag_eq : ref.tag = kind.tag) :
    (s.run (typedContentOf ref ty)).1 = .ok made ↔
      ∃ c, s.heap.payloadAt ref.number = some (.collection c) ∧
        s.registry.Converts ty c.toValue made := by
  -- The kind is that of the tag, whatever collection is behind it.
  have content (c : Collection) (held : s.heap.payloadAt ref.number = some (.collection c)) :
      s.run (typedContentOf ref ty) =
        ((s.registry.conform ty c.toValue).mapError .fault, s) := by
    cases kind <;> simp only [typedContentOf, contentOf, tag_eq, CollectionKind.tag, run_bind,
      run_payload held, run_pure, run_get, run_check]
  constructor
  · intro taken
    cases held : s.heap.payloadAt ref.number with
    | none =>
      cases kind <;>
        simp only [typedContentOf, contentOf, tag_eq, CollectionKind.tag, payload, run_bind,
          run_get, Heap.payload?_eq_payloadAt, held] at taken <;>
        cases taken
    | some p =>
      cases p with
      | collection c =>
        rw [content c held] at taken
        refine ⟨c, rfl, Registry.conform_eq_ok_iff.mp ?_⟩
        cases converted : s.registry.conform ty c.toValue with
        | ok value =>
          rw [converted] at taken
          cases taken
          rfl
        | error fault =>
          rw [converted] at taken
          cases taken
      | _ =>
        cases kind <;>
          simp only [typedContentOf, contentOf, tag_eq, CollectionKind.tag, run_bind,
            run_payload held, run_get] at taken <;>
          cases taken
  · rintro ⟨c, held, converts⟩
    rw [content c held, Registry.conform_eq_ok_iff.mpr converts]
    rfl

/-- What comes in from behind the handle of a collection. -/
theorem inbound_collection_iff (kind : CollectionKind) (isHandle : w.kind? = some .handle)
    (tagged : ty.tag? = some kind.tag) :
    (s.run (inbound w ty)).1 = .ok made ↔
      w.kind? = some .handle ∧ ∃ ref c, s.Points w ref (.collection c) ∧
        ty.tag? = some ref.tag ∧ s.registry.Converts ty c.toValue made := by
  rw [and_iff_right isHandle, inbound_handle_iff tagged isHandle, tagged]
  constructor
  · rintro ⟨ref, bound, tag_eq, taken⟩
    obtain ⟨c, held, converts⟩ := (typedContentOf_collection_iff tag_eq).mp taken
    exact ⟨ref, c, ⟨bound, held⟩, by rw [tag_eq], converts⟩
  · rintro ⟨ref, c, ⟨bound, held⟩, same, converts⟩
    have tag_eq : ref.tag = kind.tag := (Option.some.inj same).symm
    exact ⟨ref, bound, tag_eq, (typedContentOf_collection_iff tag_eq).mpr ⟨c, held, converts⟩⟩

/-- What comes in is exactly what the boundary value says. -/
theorem inbound_ok_iff : (s.run (inbound w ty)).1 = .ok made ↔ s.Says w ty made := by
  by_cases kind : w.kind? = some (s.registry.kindOf ty)
  · cases ty with
    | enumeration id => exact inbound_enumeration_iff kind
    | void | bool | i32 | i64 | f32 | f64 =>
      rw [Says, and_iff_right kind]
      simp only [inbound, Op.kindOf, kind, run_bind, run_pure, run_get, ne_eq, not_true, if_false,
        Except.ok.injEq]
      exact eq_comm
    | string =>
      rw [Says, and_iff_right kind, inbound_handle_iff rfl kind]
      constructor
      · rintro ⟨ref, bound, tag_eq, taken⟩
        obtain ⟨text, held, rfl⟩ := (typedContentOf_text_iff tag_eq).mp taken
        exact ⟨ref, text, ⟨bound, held⟩, tag_eq, rfl⟩
      · rintro ⟨ref, text, ⟨bound, held⟩, tag_eq, rfl⟩
        exact ⟨ref, bound, tag_eq, (typedContentOf_text_iff tag_eq).mpr ⟨text, held, rfl⟩⟩
    | interface id =>
      rw [Says, and_iff_right kind, inbound_handle_iff rfl kind]
      refine exists_congr fun ref => and_congr_right fun _ => and_congr_right fun tag_eq => ?_
      rw [run_typedContentOf_object tag_eq, Except.ok.injEq, eq_comm]
    | array elem => exact inbound_collection_iff .array kind rfl
    | set elem => exact inbound_collection_iff .set kind rfl
    | dict key elem => exact inbound_collection_iff .dict kind rfl
  · exact ⟨fun taken => absurd (kind?_of_inbound taken) kind, fun said => absurd said.1 kind⟩

/-- A value comes in exactly when the boundary value says it. -/
theorem inbound_exact (sound : s.Sound) (w : Wire) (ty : Ty) :
    (inbound w ty).Meets s (fun value t => t = s ∧ s.Says w ty value)
      fun _ t => t = s ∧ ∀ value, ¬ s.Says w ty value := by
  have reads := inbound_finds sound w ty
  unfold Meets
  cases hr : s.run (inbound w ty) with
  | mk result t =>
    cases result with
    | ok value => exact ⟨(reads.ok_of_run hr).1, inbound_ok_iff.mp (by rw [hr])⟩
    | error e =>
      refine ⟨(reads.bad_of_run hr).1, fun value said => ?_⟩
      have came := inbound_ok_iff.mpr said
      rw [hr] at came
      cases came

end Op

namespace Registry

variable {r : Registry} {ty : Ty} {value made : Value}

theorem Converts.hasType (converts : r.Converts ty value made) : r.HasType ty made :=
  hasType_of_conform (conform_eq_ok_iff.mpr converts)

end Registry

namespace State

variable {s : State} {w : Wire} {ty : Ty} {made : Value}

/-- What a boundary value says has the type. -/
theorem Says.hasType (said : s.Says w ty made) : s.registry.HasType ty made := by
  obtain ⟨_, said⟩ := said
  cases ty with
  | void =>
    cases said
    exact .void
  | bool =>
    cases said
    exact .bool _
  | i32 =>
    cases said
    exact .i32 _
  | i64 =>
    cases said
    exact .i64 _
  | f32 =>
    cases said
    exact .f32 _
  | f64 =>
    cases said
    exact .f64 _
  | enumeration id =>
    obtain ⟨n, d, rfl, found, declared, _⟩ := said
    exact .enumerator found declared
  | string =>
    obtain ⟨_, text, _, _, rfl⟩ := said
    exact .str text
  | interface id =>
    obtain ⟨ref, _, tag_eq, rfl⟩ := said
    exact .object tag_eq
  | array elem | set elem | dict key elem =>
    obtain ⟨_, _, _, _, converts⟩ := said
    exact converts.hasType

/-- A value is taken under a type exactly as what it stands for. What was taken has the type at
every depth, is left as it is when it is converted again, and its number is the one that was given.
-/
theorem taken_values_typed (s : State) (ty : Ty) :
    (∀ value made, s.registry.conform ty value = .ok made ↔ s.registry.Converts ty value made) ∧
    (∀ w made, (s.run (Op.inbound w ty)).1 = .ok made ↔ s.Says w ty made) ∧
    (∀ made, (∃ value, s.registry.conform ty value = .ok made) ∨
        (∃ w, (s.run (Op.inbound w ty)).1 = .ok made) →
      s.registry.HasType ty made ∧ s.registry.conform ty made = .ok made) ∧
    (∀ value made, s.registry.conform ty value = .ok made →
      (∀ n, made.integer? = some n → value.integer? = some n) ∧
      (ty ≠ .void → made.integer? = value.integer?)) := by
  refine ⟨fun _ _ => Registry.conform_eq_ok_iff, fun _ _ => Op.inbound_ok_iff, ?_, ?_⟩
  · intro made taken
    have typed : s.registry.HasType ty made := by
      rcases taken with ⟨value, converted⟩ | ⟨w, came⟩
      · exact Registry.hasType_of_conform converted
      · exact (Op.inbound_ok_iff.mp came).hasType
    exact ⟨typed, typed.conform_eq⟩
  · intro value made converted
    have converts := Registry.conform_eq_ok_iff.mp converted
    refine ⟨fun n number => ?_, converts.integer?_eq⟩
    by_cases nothing : ty = .void
    · subst nothing
      cases converts
      cases number
    · rw [← converts.integer?_eq nothing, number]

/-- Conversion comes before freeing a set of repetitions. -/
example (r : Registry) : r.conform (.set .i32) (.set [.i64 5, .i32 7, .i32 5]) =
    .ok (.set [.i32 5, .i32 7]) := by
  rfl

end State

end ObjectBoundary
