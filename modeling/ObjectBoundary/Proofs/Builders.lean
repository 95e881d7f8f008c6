import Mathlib
import ObjectBoundary.Proofs.Entry.Compliance
import ObjectBoundary.Proofs.Marshal.RoundTrip

/-!
# What callers build

A caller builds sets and dictionaries without declared types and hands them in under one. A builder
holds every member and every key once. Conversion to the declared type can make two of them equal,
because an integer has a spelling in either width: a set is freed of what became equal, a dictionary
is not. So the keys of a dictionary that was handed in are distinct exactly when its builder holds
no number under both spellings.
-/

namespace ObjectBoundary

namespace Value

/-- An integer in 64 bits, and every other value as it is. -/
def wide : Value → Value
  | .i32 n => .i64 n.toInt64
  | .enumerator n => .i64 n
  | value => value

theorem narrow?_eq_some_iff {n : Int64} {m : Int32} : narrow? n = some m ↔ m.toInt64 = n := by
  have upper := m.toInt_le
  have lower := m.le_toInt
  unfold narrow?
  rw [← Int64.toInt_inj, Int32.toInt_toInt64]
  split
  · simp only [Option.some.injEq, ← Int32.toInt_inj, Int64.toInt_toInt32]
    grind
  · grind

theorem toInt64_inj {n m : Int32} : n.toInt64 = m.toInt64 ↔ n = m := by
  rw [← Int64.toInt_inj, Int32.toInt_toInt64, Int32.toInt_toInt64, Int32.toInt_inj]

/-- Among the keys that callers give, only the two spellings of a number are the same integer. -/
theorem wide_eq_iff_of_given {a b : Value} (ha : a.isGivenKey) (hb : b.isGivenKey) :
    a.wide = b.wide ↔ a = b ∨ ∃ n : Int32,
      a = .i32 n ∧ b = .i64 n.toInt64 ∨ a = .i64 n.toInt64 ∧ b = .i32 n := by
  cases a <;> cases ha <;> cases b <;> cases hb <;> simp [wide, toInt64_inj, eq_comm]

theorem pairwise_not_same_iff {items : List Value} :
    items.Pairwise (fun a b => a.same b = false) ↔ items.Nodup := by
  have differ : ∀ a b : Value, a.same b = false ↔ a ≠ b := fun a b => by
    rw [ne_eq, ← same_iff_eq, Bool.not_eq_true]
  simp only [differ, List.Nodup]

end Value

namespace Registry

variable {r : Registry} {key : Ty} {k l converted : Value}

/-- Conversion to the type of a key changes the spelling of an integer and nothing else. -/
theorem wide_of_conform (isKey : key.isKey) (h : r.conform key k = .ok converted) :
    converted.wide = k.wide := by
  have checked : ∀ {id n}, (r.checkEnumerator id n).map .enumerator = .ok converted →
      converted.wide = .i64 n := by
    intro id n h
    obtain ⟨m, checked, rfl⟩ := map_eq_ok_iff.mp h
    rw [(checkEnumerator_eq_ok_iff.mp checked).1]
    rfl
  cases key with
  | string | i64 =>
    cases k <;> cases h
    all_goals rfl
  | i32 =>
    cases k with
    | i32 n =>
      cases h
      rfl
    | i64 n =>
      simp only [conform] at h
      split at h
      · next m narrowed =>
        cases h
        rw [← Value.narrow?_eq_some_iff.mp narrowed]
        rfl
      · cases h
    | _ => cases h
  | enumeration id =>
    cases k with
    | i32 n | i64 n | enumerator n => exact checked h
    | _ => cases h
  | _ => cases isKey

/-- The values of the type of a key are told apart by the integers that they are. -/
theorem HasType.eq_of_wide_eq (isKey : key.isKey) (hk : r.HasType key k) (hl : r.HasType key l)
    (same : k.wide = l.wide) : k = l := by
  cases hk with
  | str a => cases hl; exact same
  | i64 n => cases hl; exact same
  | i32 n =>
    cases hl with
    | i32 m =>
      rw [Value.toInt64_inj.mp (Value.i64.inj same)]
  | enumerator =>
    cases hl with
    | enumerator => rw [Value.i64.inj same]
  | _ => cases isKey

/-- Converted keys are distinct exactly when the keys are distinct integers and texts. -/
theorem nodup_converted_iff {keys converted : List Value} (isKey : key.isKey)
    (all : List.Forall₂ (fun k l => r.conform key k = .ok l) keys converted) :
    converted.Nodup ↔ (keys.map Value.wide).Nodup := by
  have same : keys.map Value.wide = converted.map Value.wide := by
    induction all with
    | nil => rfl
    | cons first _ ih => rw [List.map_cons, List.map_cons, ih, wide_of_conform isKey first]
  have typed : ∀ l ∈ converted, r.HasType key l := by
    intro l member
    obtain ⟨k, _, made⟩ := mem_right_of_forall₂ all member
    exact hasType_of_conform made
  rw [same]
  constructor
  · intro once
    exact once.map_on fun a ha b hb => (typed a ha).eq_of_wide_eq isKey (typed b hb)
  · exact List.Nodup.of_map _

end Registry

namespace Collection

def keyList (c : Collection) : List Value := c.entries.filterMap Entry.key

/-- A number is stored under both its spellings. -/
def TwiceKeyed (c : Collection) : Prop :=
  ∃ n : Int32, .i32 n ∈ c.keyList ∧ .i64 n.toInt64 ∈ c.keyList

variable {c : Collection}

theorem Keyed.keyList_nodup (keyed : Keyed (c.entries.map Entry.key)) : c.keyList.Nodup := by
  have same : c.keyList = (c.entries.map Entry.key).filterMap id := by
    simp [keyList, List.filterMap_map]
  rw [same]
  exact keyed.once.filterMap fun a b k ha hb => ha.trans hb.symm

theorem Keyed.isGivenKey (keyed : Keyed (c.entries.map Entry.key)) {key : Value}
    (member : key ∈ c.keyList) : key.isGivenKey := by
  obtain ⟨entry, listed, found⟩ := List.mem_filterMap.mp member
  obtain ⟨value, same, given⟩ := keyed.given entry.key (List.mem_map_of_mem listed)
  rw [found] at same
  cases same
  exact given

/-- Among keys that were given once each, two are one integer only as its two spellings. -/
theorem Keyed.nodup_wide_iff (keyed : Keyed (c.entries.map Entry.key)) :
    (c.keyList.map Value.wide).Nodup ↔ ¬ c.TwiceKeyed := by
  rw [List.nodup_map_iff_inj_on keyed.keyList_nodup]
  constructor
  · rintro injective ⟨n, narrow, wide⟩
    cases injective _ narrow _ wide rfl
  · intro single a ha b hb same
    rcases (Value.wide_eq_iff_of_given (keyed.isGivenKey ha) (keyed.isGivenKey hb)).mp same with
      equal | ⟨n, ⟨rfl, rfl⟩ | ⟨rfl, rfl⟩⟩
    · exact equal
    · exact absurd ⟨n, ha, hb⟩ single
    · exact absurd ⟨n, hb, ha⟩ single

end Collection

namespace Registry

variable {r : Registry} {c : Collection} {value : Value}

/-- The keys of a converted dictionary are the converted keys. -/
theorem keys_of_conform_dict {key elem : Ty}
    (h : r.conform (.dict key elem) c.toValue = .ok value) :
    c.kind = .dict ∧ ∃ pairs, value = .dict pairs ∧
      List.Forall₂ (fun k l => r.conform key k = .ok l) c.keyList (pairs.map Prod.fst) := by
  unfold Collection.toValue at h
  cases kind : c.kind with
  | array | set =>
    rw [kind] at h
    cases h
  | dict =>
    rw [kind] at h
    obtain ⟨pairs, all, rfl⟩ := map_eq_ok_iff.mp h
    refine ⟨rfl, pairs, rfl, ?_⟩
    have keys : c.keyList =
        (c.entries.filterMap fun entry => entry.key.map (·, entry.value)).map Prod.fst := by
      simp [Collection.keyList, List.map_filterMap, Function.comp_def]
    rw [keys, List.forall₂_map_left_iff, List.forall₂_map_right_iff]
    refine (mapM_eq_ok_iff.mp all).imp fun pair made same => ?_
    obtain ⟨k, hk, same⟩ := bind_eq_ok_iff.mp same
    obtain ⟨v, _, same⟩ := bind_eq_ok_iff.mp same
    cases same
    exact hk

end Registry

/-- A collection comes in as the value that its content converts to. -/
theorem Op.inbound_collection {s : State} {h : Handle} {ref : Ref} {c : Collection} {ty : Ty}
    (tagged : ty.tag?.isSome) (bound : s.handles.bound? h = some ref)
    (tag_eq : ref.tag = c.kind.tag) (hp : s.heap.payloadAt ref.number = some (.collection c)) :
    (inbound (.handle h) ty).Meets s (fun value _ => s.registry.conform ty c.toValue = .ok value)
      fun _ _ => True := by
  obtain ⟨tag, tagged⟩ := Option.isSome_iff_exists.mp tagged
  have behind : (resolve h (some tag) >>= fun ref => typedContentOf ref ty).Meets s
      (fun value _ => s.registry.conform ty c.toValue = .ok value) fun _ _ => True := by
    refine (resolve_finds h (some tag)).bind_meets (fun _ _ => trivial) ?_
    rintro found ⟨same, _⟩
    obtain rfl : ref = found := Option.some.inj (bound.symm.trans same)
    unfold Meets
    rw [run_typedContentOf_collection tag_eq hp]
    cases s.registry.conform ty c.toValue with
    | ok value => rfl
    | error fault => trivial
  unfold Meets at behind ⊢
  rwa [run_inbound_handle tagged]

/-- A builder is handed in under a declared type, whatever has been registered. A set comes in with
distinct members. A dictionary comes in with distinct keys exactly when no number is stored in its
builder under both its spellings. -/
theorem State.handed_in_distinct_iff {s t : State} {h : Handle} {ref : Ref} {c : Collection}
    {ty : Ty} {value : Value} (reachable : s.Reachable) (bound : s.handles.bound? h = some ref)
    (built : s.heap.payloadAt ref.number = some (.collection c)) (unsealed : c.isSealed = false)
    (registry : Registry)
    (taken : ({ s with registry } : State).run (Op.inbound (.handle h) ty) = (.ok value, t)) :
    (∀ elem, ty = .set elem →
      ∃ items, value = .set items ∧ items.Pairwise fun a b => a.same b = false) ∧
    ∀ key elem, ty = .dict key elem → key.isKey →
      ∃ pairs, value = .dict pairs ∧
        ((pairs.map Prod.fst).Pairwise (fun a b => a.same b = false) ↔ ¬ c.TwiceKeyed) := by
  have fits := reachable.sound.heap.fits_of_holds (reachable.sound.has bound) built
  have converted (tagged : ty.tag?.isSome) : registry.conform ty c.toValue = .ok value :=
    (Op.inbound_collection (s := { s with registry }) tagged bound fits.1 built).ok_of_run taken
  constructor
  · rintro elem rfl
    cases Registry.hasType_of_conform (converted rfl) with
    | set _ once => exact ⟨_, rfl, Value.pairwise_not_same_iff.mpr once⟩
  · rintro key elem rfl isKey
    obtain ⟨dict, pairs, rfl, all⟩ := Registry.keys_of_conform_dict (converted rfl)
    have keyed := (reachable.wellTyped _ _ built).keyed unsealed dict
    refine ⟨pairs, rfl, ?_⟩
    rw [Value.pairwise_not_same_iff, Registry.nodup_converted_iff isKey all, keyed.nodup_wide_iff]

/-- A caller stores one value under a 32-bit five and one under a 64-bit five. They come in under
one key. -/
theorem State.five_keyed_twice :
    let dict : Handle := ⟨0x100000001⟩
    let s := performAll {} [(0, .newCollection .dict),
      (0, .insertEntry dict (.i32 5) (.i32 1)), (0, .insertEntry dict (.i64 5) (.i32 2))]
    let c : Collection :=
      { kind := .dict, entries := [⟨some (.i32 5), .i32 1⟩, ⟨some (.i64 5), .i32 2⟩] }
    let pairs : List (Value × Value) := [(.i64 5, .i32 1), (.i64 5, .i32 2)]
    s.heap.payloadAt 0 = some (.collection c) ∧ c.TwiceKeyed ∧
      (s.run (Op.inbound (.handle dict) (.dict .i64 .i32))).1 = .ok (.dict pairs) ∧
      ¬ (pairs.map Prod.fst).Pairwise fun a b => a.same b = false := by
  intro dict s c pairs
  have reachable : s.Reachable := by
    refine Leads.refl.performAll fun call hcall => ?_
    simp only [List.mem_cons, List.not_mem_nil, or_false] at hcall
    rcases hcall with rfl | rfl | rfl
    · exact .of_symbol "idlbridge_dict_new" [] rfl
    · exact .of_symbol "idlbridge_dict_insert" [.handle _, .wire _, .wire _] rfl
    · exact .of_symbol "idlbridge_dict_insert" [.handle _, .wire _, .wire _] rfl
  have bound : s.handles.bound? dict = some ⟨0, .dict⟩ := by decide +kernel
  have built : s.heap.payloadAt 0 = some (.collection c) := by
    simp only [s, dict, c]
    cbv
  have taken : (s.run (Op.inbound (.handle dict) (.dict .i64 .i32))).1 = .ok (.dict pairs) := by
    simp only [s, dict, pairs]
    cbv
  have twice : c.TwiceKeyed :=
    ⟨5, by simp [c, Collection.keyList], by simp [c, Collection.keyList]⟩
  clear_value s
  refine ⟨built, twice, taken, ?_⟩
  obtain ⟨found, same, distinct_iff⟩ := (handed_in_distinct_iff reachable bound built rfl s.registry
    (Prod.ext taken rfl)).2 .i64 .i32 rfl rfl
  cases same
  exact fun distinct => distinct_iff.mp distinct twice

end ObjectBoundary
