import ObjectBoundary.Proofs.Marshal.Typing
import ObjectBoundary.Proofs.Sound

/-!
# Well-typed heaps

In a well-typed heap every collection with declared types holds values of these types. Only sealed
copies have declared types, so what a caller adds to a builder needs no check; a dictionary that a
caller builds has texts and integers as its keys, each of them once. Every operation of the heap
keeps this, whatever becomes of the counts.
-/

namespace ObjectBoundary

/-- A value of a type is still one after more has been registered. -/
theorem Registry.HasType.mono {r r' : Registry} {ty : Ty} {value : Value}
    (more : ∀ id d, r.enum? id = some d → r'.enum? id = some d) (typed : r.HasType ty value) :
    r'.HasType ty value := by
  induction typed with
  | void => exact .void
  | bool b => exact .bool b
  | i32 n => exact .i32 n
  | i64 n => exact .i64 n
  | f32 pattern => exact .f32 pattern
  | f64 pattern => exact .f64 pattern
  | str s => exact .str s
  | enumerator found declared => exact .enumerator (more _ _ found) declared
  | object tag_eq => exact .object tag_eq
  | array _ each => exact .array each
  | set _ once each => exact .set each once
  | dict _ _ keys values => exact .dict keys values

/-! ### Collections -/

/-- What a caller can store a value under: a text or an integer. -/
def Value.isGivenKey : Value → Bool
  | .str _ | .i32 _ | .i64 _ => true
  | _ => false

namespace Collection

/-- Every entry has a key that a caller can give, and no two entries have the same one. -/
structure Keyed (keys : List (Option Value)) : Prop where
  given : ∀ key ∈ keys, ∃ value, key = some value ∧ value.isGivenKey
  once : keys.Nodup

/-- The entries have the types that are declared for them, and builders have none declared. The keys
of a builder are those that its callers gave. -/
structure WellTyped (r : Registry) (c : Collection) : Prop where
  values : ∀ ty, c.elemTy = some ty → ∀ entry ∈ c.entries, r.HasType ty entry.value
  keys : ∀ ty, c.keyTy = some ty → ∀ entry ∈ c.entries, r.HasType ty (entry.key.getD .void)
  builder : c.isSealed = false → c.elemTy = none ∧ c.keyTy = none
  keyed : c.isSealed = false → c.kind = .dict → Keyed (c.entries.map Entry.key)

variable {r : Registry} {c : Collection} {value : Value}

theorem keyed_nil : Keyed [] where
  given key member := by cases member
  once := List.nodup_nil

/-- Storing a value under a key keeps what holds of all keys and all values. -/
theorem forall_putEntry {P Q : Value → Prop} {key : Value} {entries : List Entry} (hk : P key)
    (hv : Q value) (all : ∀ entry ∈ entries, P (entry.key.getD .void) ∧ Q entry.value) :
    ∀ entry ∈ putEntry key value entries, P (entry.key.getD .void) ∧ Q entry.value := by
  induction entries with
  | nil =>
    intro entry member
    rw [List.mem_singleton.mp member]
    exact ⟨hk, hv⟩
  | cons first entries ih =>
    have head := all first (by simp)
    have rest := ih fun entry member => all entry (by simp [member])
    intro entry member
    unfold putEntry at member
    split at member
    · rcases List.mem_cons.mp member with rfl | member
      · exact ⟨head.1, hv⟩
      · exact all entry (by simp [member])
    · rcases List.mem_cons.mp member with rfl | member
      · exact head
      · exact rest entry member

theorem hasKey_iff {key : Value} {entry : Entry} :
    entry.hasKey key = true ↔ entry.key = some key := by
  unfold Entry.hasKey
  cases entry.key with
  | none => simp
  | some existing => rw [Value.same_iff_eq, Option.some.injEq]

/-- A key that is there stays in its place, and a new one comes last. -/
theorem keys_putEntry (key value : Value) (entries : List Entry) :
    some key ∈ entries.map Entry.key ∧
        (putEntry key value entries).map Entry.key = entries.map Entry.key ∨
      some key ∉ entries.map Entry.key ∧
        (putEntry key value entries).map Entry.key = entries.map Entry.key ++ [some key] := by
  induction entries with
  | nil => exact .inr ⟨by simp, rfl⟩
  | cons first entries ih =>
    unfold putEntry
    by_cases found : first.hasKey key = true
    · have same := hasKey_iff.mp found
      exact .inl ⟨by simp [same], by simp [found]⟩
    · have other : some key ≠ first.key := fun same => found (hasKey_iff.mpr same.symm)
      rcases ih with ⟨listed, keys⟩ | ⟨new, keys⟩
      · exact .inl ⟨List.mem_cons_of_mem _ listed, by simp [found, keys]⟩
      · exact .inr ⟨List.not_mem_cons_of_ne_of_not_mem other new, by simp [found, keys]⟩

theorem Keyed.concat {keys : List (Option Value)} {key : Value} (keyed : Keyed keys)
    (given : key.isGivenKey) (new : some key ∉ keys) : Keyed (keys ++ [some key]) := by
  constructor
  · intro k member
    rcases List.mem_append.mp member with old | last
    · exact keyed.given k old
    · exact ⟨key, List.mem_singleton.mp last, given⟩
  · refine List.nodup_append.mpr ⟨keyed.once, by simp, ?_⟩
    intro a ha b hb same
    rw [List.mem_singleton.mp hb] at same
    exact new (same ▸ ha)

theorem Keyed.putEntry {key : Value} {entries : List Entry}
    (keyed : Keyed (entries.map Entry.key)) (given : key.isGivenKey) :
    Keyed ((putEntry key value entries).map Entry.key) := by
  rcases keys_putEntry key value entries with ⟨_, keys⟩ | ⟨new, keys⟩
  · rw [keys]
    exact keyed
  · rw [keys]
    exact keyed.concat given new

/-- Without declared types only the keys of a builder need a check. -/
theorem wellTyped_untyped (elem : c.elemTy = none) (key : c.keyTy = none)
    (keyed : c.isSealed = false → c.kind = .dict → Keyed (c.entries.map Entry.key)) :
    c.WellTyped r where
  values ty h := by simp [elem] at h
  keys ty h := by simp [key] at h
  builder _ := ⟨elem, key⟩
  keyed := keyed

theorem WellTyped.mono {r' : Registry}
    (more : ∀ id d, r.enum? id = some d → r'.enum? id = some d) (typed : c.WellTyped r) :
    c.WellTyped r' where
  values ty h entry member := (typed.values ty h entry member).mono more
  keys ty h entry member := (typed.keys ty h entry member).mono more
  builder := typed.builder
  keyed := typed.keyed

theorem WellTyped.advance (typed : c.WellTyped r) : c.advance.WellTyped r :=
  ⟨typed.values, typed.keys, typed.builder, typed.keyed⟩

theorem WellTyped.reset (typed : c.WellTyped r) : c.reset.WellTyped r :=
  ⟨typed.values, typed.keys, typed.builder, typed.keyed⟩

theorem writable_of_check {kind : CollectionKind} (writable : c.checkWritable kind = .ok ()) :
    c.kind = kind ∧ c.isSealed = false := by
  unfold checkWritable at writable
  split at writable
  · cases writable
  · next same =>
    split at writable
    · cases writable
    · next unsealed => exact ⟨by simpa using same, by simpa using unsealed⟩

/-- Only builders can be added to, and only the keys that are added matter. -/
theorem WellTyped.added (typed : c.WellTyped r) {kind : CollectionKind}
    (writable : c.checkWritable kind = .ok ()) {entries : List Entry}
    (keyed : kind = .dict → Keyed (c.entries.map Entry.key) → Keyed (entries.map Entry.key)) :
    ({ c with entries } : Collection).WellTyped r := by
  obtain ⟨same, unsealed⟩ := writable_of_check writable
  obtain ⟨elem, key⟩ := typed.builder unsealed
  refine wellTyped_untyped elem key fun _ dict => ?_
  exact keyed (same ▸ dict) (typed.keyed unsealed dict)

theorem WellTyped.push (typed : c.WellTyped r) {c' : Collection} (h : c.push value = .ok c') :
    c'.WellTyped r := by
  obtain ⟨_, writable, h⟩ := bind_eq_ok_iff.mp h
  cases h
  exact typed.added writable fun dict => by cases dict

theorem WellTyped.insert (typed : c.WellTyped r) {found : Bool × Collection}
    (h : c.insert value = .ok found) : found.2.WellTyped r := by
  obtain ⟨_, writable, h⟩ := bind_eq_ok_iff.mp h
  cases h
  exact typed.added writable fun dict => by cases dict

theorem WellTyped.insertEntry (typed : c.WellTyped r) {key : Value} (given : key.isGivenKey)
    {found : Bool × Collection} (h : c.insertEntry key value = .ok found) :
    found.2.WellTyped r := by
  obtain ⟨_, writable, h⟩ := bind_eq_ok_iff.mp h
  cases h
  exact typed.added writable fun _ keyed => keyed.putEntry given

theorem forall_foldl_putEntry {P Q : Value → Prop} {pairs : List (Value × Value)}
    {start : List Entry} (each : ∀ pair ∈ pairs, P pair.1 ∧ Q pair.2)
    (all : ∀ entry ∈ start, P (entry.key.getD .void) ∧ Q entry.value) :
    ∀ entry ∈ pairs.foldl (fun entries (key, value) => putEntry key value entries) start,
      P (entry.key.getD .void) ∧ Q entry.value := by
  induction pairs generalizing start with
  | nil => exact all
  | cons pair pairs ih =>
    obtain ⟨hk, hv⟩ := each pair (by simp)
    exact ih (fun p member => each p (by simp [member])) (forall_putEntry hk hv all)

/-- A copy of a value of a declared type can be made, and it is well typed. -/
theorem snapshot_wellTyped {ty : Ty} (collection : (declared? ty).isSome)
    (typed : r.HasType ty value) : ∃ c, snapshot value ty = .ok c ∧ c.WellTyped r := by
  cases typed with
  | array each =>
    refine ⟨_, rfl, fun ty h entry member => ?_, fun ty h => (by cases h), fun h => (by cases h),
      fun h => (by cases h)⟩
    cases h
    obtain ⟨item, listed, rfl⟩ := List.mem_map.mp member
    exact each item listed
  | @set elem items each once =>
    refine ⟨_, rfl, fun ty h entry member => ?_, fun ty h => (by cases h), fun h => (by cases h),
      fun h => (by cases h)⟩
    cases h
    rw [Value.copyMembers_nil] at member
    obtain ⟨item, listed, rfl⟩ := List.mem_map.mp member
    exact each item (Value.mem_distinct.mp listed)
  | @dict key elem pairs keys values =>
    have both := @forall_foldl_putEntry (r.HasType key) (r.HasType elem) pairs []
      (fun pair member => ⟨keys pair member, values pair member⟩) (by simp)
    rw [← copyPairs_eq_foldl] at both
    refine ⟨_, rfl, fun ty h entry member => ?_, fun ty h entry member => ?_,
      fun h => (by cases h), fun h => (by cases h)⟩
    · cases h
      exact (both entry member).2
    · cases h
      exact (both entry member).1
  | _ => cases collection

theorem untypedSnapshot_wellTyped (h : untypedSnapshot value = .ok c) : c.WellTyped r := by
  unfold untypedSnapshot at h
  split at h
  · cases h
  · cases h
    exact wellTyped_untyped rfl rfl fun h => by cases h

end Collection

/-! ### Heaps -/

/-- A collection is well typed, and other payloads need not be. -/
def Payload.WellTyped (r : Registry) : Payload → Prop
  | .collection c => c.WellTyped r
  | _ => True

namespace Heap

def WellTyped (r : Registry) (heap : Heap) : Prop :=
  ∀ n p, heap.payloadAt n = some p → p.WellTyped r

variable {r : Registry} {heap after : Heap} {p : Payload}

theorem wellTyped_empty : WellTyped r {} := every_empty

theorem WellTyped.kept (typed : heap.WellTyped r) (kept : heap.Kept after)
    (length_eq : after.objects.length = heap.objects.length) : after.WellTyped r :=
  Every.kept typed kept length_eq

theorem WellTyped.create (typed : heap.WellTyped r) (tag : Tag) (hp : p.WellTyped r) :
    (heap.create tag p).2.WellTyped r :=
  Every.create typed tag hp

theorem WellTyped.replace (typed : heap.WellTyped r) (ref : Ref) (hp : p.WellTyped r) :
    (heap.replace ref p).WellTyped r :=
  Every.replace typed ref hp

theorem WellTyped.mono {r' : Registry}
    (more : ∀ id d, r.enum? id = some d → r'.enum? id = some d) (typed : heap.WellTyped r) :
    heap.WellTyped r' := by
  intro n p hp
  cases p with
  | collection c => exact Collection.WellTyped.mono more (typed n _ hp)
  | _ => trivial

end Heap

end ObjectBoundary
