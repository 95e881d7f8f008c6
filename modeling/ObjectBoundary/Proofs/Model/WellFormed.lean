import Mathlib.Data.List.Nodup
import ObjectBoundary.Proofs.Model.Loading

/-!
# Well-formed registries

Every registry that loads can reach is well formed: its index and its tables are in step, every
descriptor in it keeps the rules, and every type in it is made of what is registered.
-/

namespace ObjectBoundary

/-- The name found for a declared value leads back to the value. -/
theorem EnumDescriptor.Allowed.valueOf?_nameOf? {d : EnumDescriptor} (allowed : d.Allowed)
    {v : String × Int64} (member : v ∈ d.values) :
    (d.nameOf? v.2).bind d.valueOf? = some v.2 := by
  obtain ⟨first, hfirst⟩ : ∃ first, d.values.find? (·.2 == v.2) = some first := by
    rw [← Option.isSome_iff_exists, List.find?_isSome]
    exact ⟨v, member, by simp⟩
  have same : first.2 = v.2 := by simpa using List.find?_some hfirst
  obtain ⟨named, hnamed⟩ : ∃ named, d.values.find? (·.1 == first.1) = some named := by
    rw [← Option.isSome_iff_exists, List.find?_isSome]
    exact ⟨first, List.mem_of_find?_eq_some hfirst, by simp⟩
  have again : named = first :=
    List.inj_on_of_nodup_map allowed.values_nodup (List.mem_of_find?_eq_some hnamed)
      (List.mem_of_find?_eq_some hfirst) (by simpa using List.find?_some hnamed)
  simp [nameOf?, valueOf?, hfirst, hnamed, again, same]

namespace Registry

variable {r r' : Registry} {m : Model} {l : Loaded} {enums : List EnumDescriptor}
  {interfaces : List InterfaceDescriptor}

/-- The index and the tables are in step. -/
structure Indexed (r : Registry) : Prop where
  enum_id : ∀ (i : Nat) (d : EnumDescriptor), r.enums[i]? = some d → d.id = ⟨i⟩
  interface_id : ∀ (i : Nat) (d : InterfaceDescriptor), r.interfaces[i]? = some d → d.id = ⟨i⟩
  names_nodup : (r.names.map (·.1)).Nodup
  lookup_enum : ∀ name id, r.lookup? name = some (.enumeration id) ↔
    ∃ d, r.enum? id = some d ∧ d.name = name
  lookup_interface : ∀ name id, r.lookup? name = some (.interface id) ↔
    ∃ d, r.interface? id = some d ∧ d.name = name

structure WellFormed (r : Registry) : Prop extends r.Indexed where
  enums_allowed : ∀ d ∈ r.enums, d.Allowed
  interfaces_allowed : ∀ d ∈ r.interfaces, d.Allowed
  /-- Every registered type that occurs in the type of a member has a place in its table. -/
  types_held : ∀ d ∈ r.interfaces, ∀ ty ∈ d.types, ∀ key : TypeKey, key.ty ∈ ty.parts → r.Holds key

theorem wellFormed_empty : WellFormed {} where
  enum_id := by simp
  interface_id := by simp
  names_nodup := by simp
  lookup_enum := by simp [lookup?, enum?]
  lookup_interface := by simp [lookup?, interface?]
  enums_allowed := by simp
  interfaces_allowed := by simp
  types_held := by simp

theorem Indexed.holds (indexed : r.Indexed) (name : String) (key : TypeKey)
    (found : r.lookup? name = some key) : r.Holds key := by
  cases key with
  | interface id =>
    obtain ⟨d, hd, _⟩ := (indexed.lookup_interface name id).mp found
    exact (List.getElem?_eq_some_iff.mp hd).1
  | enumeration id =>
    obtain ⟨d, hd, _⟩ := (indexed.lookup_enum name id).mp found
    exact (List.getElem?_eq_some_iff.mp hd).1

/-! ### Tables -/

/-- In a table where every item has its place as its id, an item is found by its id. -/
theorem exists_getElem?_iff {δ ι : Type} {idOf : δ → ι} {place : Nat → ι} {table : List δ}
    (injective : Function.Injective place)
    (ids : ∀ (i : Nat) (d : δ), table[i]? = some d → idOf d = place i) (i : Nat) (P : δ → Prop) :
    (∃ d, table[i]? = some d ∧ P d) ↔ ∃ d ∈ table, P d ∧ idOf d = place i := by
  constructor
  · rintro ⟨d, found, h⟩
    exact ⟨d, List.mem_of_getElem? found, h, ids i d found⟩
  · rintro ⟨d, member, h, hid⟩
    obtain ⟨j, hj⟩ := List.getElem?_of_mem member
    rw [injective ((ids j d hj).symm.trans hid)] at hj
    exact ⟨d, hj, h⟩

/-- A table stays in order when its additions are numbered on. -/
theorem ids_append {δ ι : Type} {idOf : δ → ι} {place : Nat → ι} {table fresh : List δ}
    (ids : ∀ (i : Nat) (d : δ), table[i]? = some d → idOf d = place i)
    (next : ∀ (i : Nat) (d : δ), fresh[i]? = some d → idOf d = place (table.length + i)) (i : Nat)
    (d : δ) (h : (table ++ fresh)[i]? = some d) : idOf d = place i := by
  by_cases old : i < table.length
  · rw [List.getElem?_append_left old] at h
    exact ids i d h
  · rw [List.getElem?_append_right (by omega)] at h
    have := next _ d h
    rwa [Nat.add_sub_cancel' (by omega)] at this

theorem exists_enum?_iff
    (ids : ∀ (i : Nat) (d : EnumDescriptor), r.enums[i]? = some d → d.id = ⟨i⟩) (name : String)
    (id : EnumId) :
    (∃ d, r.enum? id = some d ∧ d.name = name) ↔ ∃ d ∈ r.enums, d.name = name ∧ d.id = id :=
  exists_getElem?_iff (fun _ _ => EnumId.mk.inj) ids id.index _

theorem exists_interface?_iff
    (ids : ∀ (i : Nat) (d : InterfaceDescriptor), r.interfaces[i]? = some d → d.id = ⟨i⟩)
    (name : String) (id : InterfaceId) :
    (∃ d, r.interface? id = some d ∧ d.name = name) ↔
      ∃ d ∈ r.interfaces, d.name = name ∧ d.id = id :=
  exists_getElem?_iff (fun _ _ => InterfaceId.mk.inj) ids id.index _

/-! ### One load -/

theorem map_fst_additions (r : Registry) (m : Model) :
    (r.additions m).map (·.1) = r.unregistered m.names := by
  rw [additions, List.map_append, map_fst_numbered, map_fst_numbered, Model.names]
  simp only [unregistered, List.filter_append]

theorem Indexed.commit (indexed : r.Indexed) (admits : r.Admits m enums interfaces) :
    (r.commit enums interfaces).Indexed := by
  have enum_id : ∀ (i : Nat) (d : EnumDescriptor),
      (r.commit enums interfaces).enums[i]? = some d → d.id = ⟨i⟩ :=
    ids_append indexed.enum_id fun _ _ h => admits.freshEnums_id indexed.holds h
  have interface_id : ∀ (i : Nat) (d : InterfaceDescriptor),
      (r.commit enums interfaces).interfaces[i]? = some d → d.id = ⟨i⟩ :=
    ids_append indexed.interface_id fun _ _ h => admits.freshInterfaces_id indexed.holds h
  have names_nodup : ((r.commit enums interfaces).names.map (·.1)).Nodup := by
    rw [admits.commit_names indexed.holds, List.map_append, map_fst_additions]
    refine List.nodup_append.mpr ⟨indexed.names_nodup, admits.names_nodup.filter _, ?_⟩
    rintro name registered _ new rfl
    have absent : r.lookup? name = none := by simpa using (List.mem_filter.mp new).2
    exact lookup_eq_none_iff_not_mem.mp absent registered
  refine ⟨enum_id, interface_id, names_nodup, ?_, ?_⟩
  · intro name id
    have old := indexed.lookup_enum name id
    rw [exists_enum?_iff indexed.enum_id, lookup?,
      lookup_eq_some_iff_mem indexed.names_nodup] at old
    rw [exists_enum?_iff enum_id, lookup?, lookup_eq_some_iff_mem names_nodup]
    simp [Registry.commit, old, or_and_right, exists_or]
  · intro name id
    have old := indexed.lookup_interface name id
    rw [exists_interface?_iff indexed.interface_id, lookup?,
      lookup_eq_some_iff_mem indexed.names_nodup] at old
    rw [exists_interface?_iff interface_id, lookup?, lookup_eq_some_iff_mem names_nodup]
    simp [Registry.commit, old, or_and_right, exists_or]

theorem Holds.commit {key : TypeKey} (held : r.Holds key) :
    (r.commit enums interfaces).Holds key := by
  cases key with
  | interface id => exact Nat.lt_of_lt_of_le held (by simp [Registry.commit])
  | enumeration id => exact Nat.lt_of_lt_of_le held (by simp [Registry.commit])

theorem WellFormed.commit (wf : r.WellFormed) (admits : r.Admits m enums interfaces) :
    (r.commit enums interfaces).WellFormed := by
  have indexed := wf.toIndexed.commit admits
  refine ⟨indexed, ?_, ?_, ?_⟩
  · intro d hd
    rcases List.mem_append.mp hd with old | new
    · exact wf.enums_allowed d old
    · obtain ⟨_, _, _, _, allowed⟩ :=
        mem_right_of_forall₂ admits.enums_described (List.mem_filter.mp new).1
      exact allowed
  · intro d hd
    rcases List.mem_append.mp hd with old | new
    · exact wf.interfaces_allowed d old
    · obtain ⟨_, _, _, _, allowed⟩ :=
        mem_right_of_forall₂ admits.interfaces_described (List.mem_filter.mp new).1
      exact allowed
  · intro d hd ty hty key occurs
    rcases List.mem_append.mp hd with old | new
    · exact (wf.types_held d old ty hty key occurs).commit
    · -- a type of the model is made of names of its scope, and these are now registered
      obtain ⟨_, _, _, denotes, _⟩ :=
        mem_right_of_forall₂ admits.interfaces_described (List.mem_filter.mp new).1
      obtain ⟨text, spells⟩ := denotes.spells hty
      obtain ⟨name, found⟩ := spells.exists_lookup occurs
      rw [← admits.lookup?_commit wf.holds] at found
      exact indexed.holds name key found

theorem WellFormed.load (wf : r.WellFormed) (h : r.load m = .ok (l, r')) : r'.WellFormed := by
  obtain ⟨enums, interfaces, admits, _, rfl⟩ := load_eq_ok_iff.mp h
  exact wf.commit admits

theorem WellFormed.loadAll (wf : r.WellFormed) (ms : List Model) : (r.loadAll ms).WellFormed :=
  loadAll_induction wf (fun _ _ _ _ wf h => wf.load h) ms

/-- After any attempts to load models, the index and the tables of the registry are in step, its
descriptors keep the rules and refer only to what is registered, and the values of its enumerations
are found again by the names found for them. -/
theorem loadAll_wellFormed (ms : List Model) :
    (loadAll {} ms).WellFormed ∧
      ∀ d ∈ (loadAll {} ms).enums, ∀ v ∈ d.values, (d.nameOf? v.2).bind d.valueOf? = some v.2 := by
  have wf := wellFormed_empty.loadAll ms
  exact ⟨wf, fun d hd v hv => (wf.enums_allowed d hd).valueOf?_nameOf? hv⟩

end Registry

end ObjectBoundary
