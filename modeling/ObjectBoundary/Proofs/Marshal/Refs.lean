import ObjectBoundary.Marshal.Conform
import ObjectBoundary.Proofs.Sound

/-!
# References in converted values

Converting a value, copying it into a collection and reading a collection back bring no reference
that was not there before, and none of these steps fails with a fault about an object.
-/

namespace ObjectBoundary

variable {α β : Type}

/-- A step gives what is wanted, or a fault that speaks of no object. -/
def Yields (x : Except Fault α) (wanted : α → Prop) : Prop :=
  match x with
  | .ok a => wanted a
  | .error fault => fault.namesObject = false

section Yields

variable {x : Except Fault α} {wanted : α → Prop} {wanted' : β → Prop}

theorem Yields.map {f : α → β} (h : Yields x wanted) (hf : ∀ a, wanted a → wanted' (f a)) :
    Yields (x.map f) wanted' := by
  cases x with
  | ok a => exact hf a h
  | error fault => exact h

theorem Yields.bind {f : α → Except Fault β} (h : Yields x wanted)
    (hf : ∀ a, wanted a → Yields (f a) wanted') : Yields (x >>= f) wanted' := by
  cases x with
  | ok a => exact hf a h
  | error fault => exact h

theorem yields_mapM {f : α → Except Fault β} {wanted : α → β → Prop} {items : List α}
    (h : ∀ a ∈ items, Yields (f a) (wanted a)) :
    Yields (items.mapM f) fun found => ∀ b ∈ found, ∃ a ∈ items, wanted a b := by
  induction items with
  | nil => exact fun b hb => by cases hb
  | cons item items ih =>
    rw [List.mapM_cons]
    refine (h item (by simp)).bind fun b hb => ?_
    refine (ih fun a ha => h a (by simp [ha])).bind fun found hfound => ?_
    intro c hc
    rcases List.mem_cons.mp hc with rfl | hc
    · exact ⟨item, by simp, hb⟩
    · obtain ⟨a, ha, hw⟩ := hfound c hc
      exact ⟨a, by simp [ha], hw⟩

end Yields

namespace Value

theorem mem_itemRefs {ref : Ref} {items : List Value} :
    ref ∈ itemRefs items ↔ ∃ item ∈ items, ref ∈ item.refs := by
  induction items with
  | nil => simp [itemRefs]
  | cons item items ih => simp [itemRefs, ih]

theorem mem_entryRefs {ref : Ref} {entries : List (Value × Value)} :
    ref ∈ entryRefs entries ↔ ∃ entry ∈ entries, ref ∈ entry.1.refs ∨ ref ∈ entry.2.refs := by
  induction entries with
  | nil => simp [entryRefs]
  | cons entry entries ih =>
    obtain ⟨key, value⟩ := entry
    simp [entryRefs, ih, or_assoc]

theorem mem_foldl_addDistinct {item : Value} {items start : List Value}
    (h : item ∈ items.foldl addDistinct start) : item ∈ start ∨ item ∈ items := by
  induction items generalizing start with
  | nil => exact .inl h
  | cons first items ih =>
    rcases ih h with hstart | hitems
    · unfold addDistinct at hstart
      split at hstart
      · exact .inl hstart
      · rcases List.mem_append.mp hstart with hstart | hfirst
        · exact .inl hstart
        · exact .inr (by simp [List.mem_singleton.mp hfirst])
    · exact .inr (by simp [hitems])

theorem mem_of_mem_distinct {item : Value} {items : List Value} (h : item ∈ distinct items) :
    item ∈ items := by
  rcases mem_foldl_addDistinct h with hnone | hitems
  · cases hnone
  · exact hitems

end Value

namespace Registry

theorem checkEnumerator_yields (r : Registry) (id : EnumId) (n : Int64) :
    Yields (r.checkEnumerator id n) fun _ => True := by
  unfold checkEnumerator
  split
  · rfl
  · split
    · trivial
    · rfl

/-- A converted value refers to nothing new. -/
theorem conform_yields (r : Registry) (ty : Ty) (value : Value) :
    Yields (r.conform ty value) fun converted => converted.refs ⊆ value.refs := by
  induction ty generalizing value with
  | void => exact List.nil_subset _
  | bool => cases value with
    | bool b => exact List.nil_subset _
    | _ => rfl
  | i32 => cases value with
    | i32 n => exact List.nil_subset _
    | i64 n =>
      simp only [conform]
      split
      · exact List.nil_subset _
      · rfl
    | _ => rfl
  | i64 => cases value with
    | i32 n | i64 n => exact List.nil_subset _
    | _ => rfl
  | f32 => cases value with
    | f32 pattern => exact List.nil_subset _
    | _ => rfl
  | f64 => cases value with
    | f32 pattern | f64 pattern => exact List.nil_subset _
    | _ => rfl
  | string => cases value with
    | str s => exact List.nil_subset _
    | _ => rfl
  | enumeration id => cases value with
    | i32 n | i64 n | enumerator n =>
      exact (r.checkEnumerator_yields id _).map fun _ _ => List.nil_subset _
    | _ => rfl
  | interface id => cases value with
    | object ref =>
      simp only [conform]
      split
      · exact fun _ h => h
      · rfl
    | _ => rfl
  | array elem ih => cases value with
    | array items =>
      refine (yields_mapM fun item _ => ih item).map fun converted found => ?_
      intro ref hr
      obtain ⟨b, hb, hr⟩ := Value.mem_itemRefs.mp hr
      obtain ⟨a, ha, hsub⟩ := found b hb
      exact Value.mem_itemRefs.mpr ⟨a, ha, hsub hr⟩
    | _ => rfl
  | set elem ih => cases value with
    | set items =>
      refine (yields_mapM fun item _ => ih item).map fun converted found => ?_
      intro ref hr
      obtain ⟨b, hb, hr⟩ := Value.mem_itemRefs.mp hr
      obtain ⟨a, ha, hsub⟩ := found b (Value.mem_of_mem_distinct hb)
      exact Value.mem_itemRefs.mpr ⟨a, ha, hsub hr⟩
    | _ => rfl
  | dict key elem ihKey ihElem => cases value with
    | dict entries =>
      have each : ∀ entry ∈ entries, Yields
          (do return (← r.conform key entry.1, ← r.conform elem entry.2))
          fun converted => converted.1.refs ⊆ entry.1.refs ∧ converted.2.refs ⊆ entry.2.refs := by
        intro entry _
        exact (ihKey entry.1).bind fun k hk => (ihElem entry.2).bind fun v hv => ⟨hk, hv⟩
      refine (yields_mapM each).map fun converted found => ?_
      intro ref hr
      obtain ⟨b, hb, hr⟩ := Value.mem_entryRefs.mp hr
      obtain ⟨a, ha, hkey, helem⟩ := found b hb
      exact Value.mem_entryRefs.mpr ⟨a, ha, hr.imp (fun h => hkey h) (fun h => helem h)⟩
    | _ => rfl

end Registry

/-! ### Entries of collections -/

theorem refs_of_mem_addMember {entries : List Entry} {value : Value} {entry : Entry}
    (h : entry ∈ addMember entries value) : entry ∈ entries ∨ entry.refs = value.refs := by
  unfold addMember at h
  split at h
  · exact .inl h
  · rcases List.mem_append.mp h with h | h
    · exact .inl h
    · rw [List.mem_singleton.mp h]
      exact .inr (by simp [Entry.item, Entry.refs])

theorem refs_of_mem_putEntry {key value : Value} {entries : List Entry} {entry : Entry}
    (h : entry ∈ putEntry key value entries) {ref : Ref} (hr : ref ∈ entry.refs) :
    (∃ old ∈ entries, ref ∈ old.refs) ∨ ref ∈ key.refs ∨ ref ∈ value.refs := by
  induction entries with
  | nil =>
    rw [putEntry, List.mem_singleton] at h
    subst h
    exact .inr (List.mem_append.mp hr)
  | cons first entries ih =>
    unfold putEntry at h
    split at h
    · rcases List.mem_cons.mp h with rfl | h
      · rcases List.mem_append.mp hr with hkey | hvalue
        · exact .inl ⟨first, by simp, List.mem_append_left _ hkey⟩
        · exact .inr (.inr hvalue)
      · exact .inl ⟨entry, by simp [h], hr⟩
    · rcases List.mem_cons.mp h with rfl | h
      · exact .inl ⟨entry, by simp, hr⟩
      · rcases ih h with ⟨old, hold, hr⟩ | hnew
        · exact .inl ⟨old, by simp [hold], hr⟩
        · exact .inr hnew

namespace Collection

theorem mem_refs {ref : Ref} {c : Collection} :
    ref ∈ c.refs ↔ ∃ entry ∈ c.entries, ref ∈ entry.refs := List.mem_flatMap

theorem refs_value_subset {c : Collection} {entry : Entry} (h : entry ∈ c.entries) :
    entry.value.refs ⊆ c.refs :=
  fun _ hr => mem_refs.mpr ⟨entry, h, List.mem_append_right _ hr⟩

theorem refs_key_subset {c : Collection} {entry : Entry} (h : entry ∈ c.entries) :
    (entry.key.getD .void).refs ⊆ c.refs := by
  intro ref hr
  refine mem_refs.mpr ⟨entry, h, List.mem_append_left _ ?_⟩
  cases hkey : entry.key with
  | none => simp [hkey, Value.refs] at hr
  | some key => simpa [hkey] using hr

/-- A native value refers to what the entries of its collection refer to. -/
theorem refs_toValue_subset (c : Collection) : c.toValue.refs ⊆ c.refs := by
  intro ref hr
  unfold toValue at hr
  split at hr
  · obtain ⟨item, hitem, hr⟩ := Value.mem_itemRefs.mp hr
    obtain ⟨entry, hentry, rfl⟩ := List.mem_map.mp hitem
    exact refs_value_subset hentry hr
  · obtain ⟨item, hitem, hr⟩ := Value.mem_itemRefs.mp hr
    obtain ⟨entry, hentry, rfl⟩ := List.mem_map.mp hitem
    exact refs_value_subset hentry hr
  · obtain ⟨pair, hpair, hr⟩ := Value.mem_entryRefs.mp hr
    obtain ⟨entry, hentry, hfound⟩ := List.mem_filterMap.mp hpair
    obtain ⟨key, hkey, rfl⟩ := Option.map_eq_some_iff.mp hfound
    rcases hr with hr | hr
    · have hget : entry.key.getD .void = key := by rw [hkey]; rfl
      exact refs_key_subset hentry (hget ▸ hr)
    · exact refs_value_subset hentry hr

theorem refs_foldl_addMember {items : List Value} {start : List Entry} {entry : Entry}
    (h : entry ∈ items.foldl addMember start) :
    entry ∈ start ∨ ∃ item ∈ items, entry.refs = item.refs := by
  induction items generalizing start with
  | nil => exact .inl h
  | cons item items ih =>
    rcases ih h with hstart | ⟨other, hother, hrefs⟩
    · rcases refs_of_mem_addMember hstart with hstart | hitem
      · exact .inl hstart
      · exact .inr ⟨item, by simp, hitem⟩
    · exact .inr ⟨other, by simp [hother], hrefs⟩

theorem refs_foldl_putEntry {pairs : List (Value × Value)} {start : List Entry} {entry : Entry}
    (h : entry ∈ pairs.foldl (fun entries (key, value) => putEntry key value entries) start)
    {ref : Ref} (hr : ref ∈ entry.refs) :
    (∃ old ∈ start, ref ∈ old.refs) ∨ ∃ pair ∈ pairs, ref ∈ pair.1.refs ∨ ref ∈ pair.2.refs := by
  induction pairs generalizing start with
  | nil => exact .inl ⟨entry, h, hr⟩
  | cons pair pairs ih =>
    rcases ih h with ⟨old, hold, hr⟩ | ⟨other, hother, hr⟩
    · rcases refs_of_mem_putEntry hold hr with hstart | hpair
      · exact .inl hstart
      · exact .inr ⟨pair, by simp, hpair⟩
    · exact .inr ⟨other, by simp [hother], hr⟩

/-- The entries of a native collection refer to what the collection refers to. -/
theorem refs_entriesOf? {value : Value} {kind : CollectionKind} {entries : List Entry}
    (h : entriesOf? value = some (kind, entries)) {entry : Entry} (he : entry ∈ entries)
    {ref : Ref} (hr : ref ∈ entry.refs) : ref ∈ value.refs := by
  cases value with
  | array items =>
    cases h
    obtain ⟨item, hitem, rfl⟩ := List.mem_map.mp he
    exact Value.mem_itemRefs.mpr ⟨item, hitem, by simpa [Entry.item, Entry.refs] using hr⟩
  | set items =>
    cases h
    rw [copyMembers_eq_foldl] at he
    rcases refs_foldl_addMember he with hnone | ⟨item, hitem, hrefs⟩
    · cases hnone
    · exact Value.mem_itemRefs.mpr ⟨item, hitem, hrefs ▸ hr⟩
  | dict pairs =>
    cases h
    rw [copyPairs_eq_foldl] at he
    rcases refs_foldl_putEntry he hr with ⟨old, hnone, _⟩ | hpair
    · cases hnone
    · exact Value.mem_entryRefs.mpr hpair
  | _ => cases h

theorem untypedSnapshot_eq_ok_iff {value : Value} {c : Collection} :
    untypedSnapshot value = .ok c ↔ entriesOf? value = some (c.kind, c.entries) ∧
      c.isSealed = true ∧ c.cursor = 0 ∧ c.keyTy = none ∧ c.elemTy = none := by
  obtain ⟨kind, keyTy, elemTy, isSealed, entries, cursor⟩ := c
  unfold untypedSnapshot
  cases entriesOf? value with
  | none => simp
  | some found => grind

theorem snapshot_eq_ok_iff {value : Value} {ty : Ty} {c : Collection} :
    snapshot value ty = .ok c ↔ entriesOf? value = some (c.kind, c.entries) ∧
      c.isSealed = true ∧ c.cursor = 0 ∧
      ∃ elem, declared? ty = some (c.kind, c.keyTy, elem) ∧ c.elemTy = some elem := by
  obtain ⟨kind, keyTy, elemTy, isSealed, entries, cursor⟩ := c
  unfold snapshot
  cases declared? ty with
  | none => simp
  | some declared =>
    cases entriesOf? value with
    | none => simp
    | some found => grind

theorem snapshot_yields (value : Value) (ty : Ty) :
    Yields (snapshot value ty) fun c => c.refs ⊆ value.refs := by
  unfold snapshot
  split
  · rfl
  · split
    · rfl
    · next found =>
      split
      · intro ref hr
        obtain ⟨entry, hentry, hr⟩ := mem_refs.mp hr
        exact refs_entriesOf? found hentry hr
      · rfl

theorem untypedSnapshot_yields (value : Value) :
    Yields (untypedSnapshot value) fun c => c.refs ⊆ value.refs := by
  unfold untypedSnapshot
  split
  · rfl
  · next found =>
    intro ref hr
    obtain ⟨entry, hentry, hr⟩ := mem_refs.mp hr
    exact refs_entriesOf? found hentry hr

theorem checkWritable_yields (c : Collection) (kind : CollectionKind) :
    Yields (c.checkWritable kind) fun _ => True := by
  unfold checkWritable
  split
  · rfl
  · split
    · rfl
    · trivial

/-- What a collection becomes by adding: one of the same kind that refers to what it referred to and
to what was added. -/
def Adds (c : Collection) (added : List Ref) (c' : Collection) : Prop :=
  c'.kind = c.kind ∧ ∀ ref ∈ c'.refs, ref ∈ c.refs ∨ ref ∈ added

theorem push_yields (c : Collection) (value : Value) :
    Yields (c.push value) (c.Adds value.refs) := by
  refine (c.checkWritable_yields .array).bind fun _ _ => ⟨rfl, fun ref hr => ?_⟩
  obtain ⟨entry, hentry, hr⟩ := mem_refs.mp hr
  rcases List.mem_append.mp hentry with hold | hnew
  · exact .inl (mem_refs.mpr ⟨entry, hold, hr⟩)
  · rw [List.mem_singleton.mp hnew] at hr
    exact .inr (by simpa [Entry.item, Entry.refs] using hr)

theorem insert_yields (c : Collection) (value : Value) :
    Yields (c.insert value) fun found => c.Adds value.refs found.2 := by
  refine (c.checkWritable_yields .set).bind fun _ _ => ⟨rfl, fun ref hr => ?_⟩
  obtain ⟨entry, hentry, hr⟩ := mem_refs.mp hr
  rcases refs_of_mem_addMember hentry with hold | hrefs
  · exact .inl (mem_refs.mpr ⟨entry, hold, hr⟩)
  · exact .inr (hrefs ▸ hr)

theorem insertEntry_yields (c : Collection) (key value : Value) :
    Yields (c.insertEntry key value) fun found =>
      c.Adds (key.refs ++ value.refs) found.2 := by
  refine (c.checkWritable_yields .dict).bind fun _ _ => ⟨rfl, fun ref hr => ?_⟩
  obtain ⟨entry, hentry, hr⟩ := mem_refs.mp hr
  rcases refs_of_mem_putEntry hentry hr with hold | hnew
  · exact .inl (mem_refs.mpr hold)
  · exact .inr (List.mem_append.mpr hnew)

theorem item_yields (c : Collection) (index : Nat) :
    Yields (c.item index) fun value => value.refs ⊆ c.refs := by
  unfold item
  split
  · next entry found => exact refs_value_subset (List.mem_of_getElem? found)
  · rfl

end Collection

end ObjectBoundary
