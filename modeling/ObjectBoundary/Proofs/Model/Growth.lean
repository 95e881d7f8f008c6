import ObjectBoundary.Proofs.Model.WellFormed
import ObjectBoundary.Proofs.Tasks.Registered

/-!
# Registries only grow

A load that succeeds adds the declarations that are new behind those that are there, and tells the
caller where every declared name is. Whatever is attempted later, the same model is loaded again
with the same outcome, and nothing is added.
-/

namespace ObjectBoundary

namespace Registry

variable {r r' r'' : Registry} {m : Model} {l : Loaded} {enums : List EnumDescriptor}
  {interfaces : List InterfaceDescriptor}

/-! ### Extension -/

/-- Names keep what they stand for, and the tables are continued. -/
structure Extends (r r' : Registry) : Prop where
  lookup : ∀ name key, r.lookup? name = some key → r'.lookup? name = some key
  enums : r.enums <+: r'.enums
  interfaces : r.interfaces <+: r'.interfaces

theorem Extends.refl (r : Registry) : r.Extends r :=
  ⟨fun _ _ found => found, List.prefix_refl _, List.prefix_refl _⟩

theorem Extends.trans (first : r.Extends r') (second : r'.Extends r'') : r.Extends r'' :=
  ⟨fun name key found => second.lookup name key (first.lookup name key found),
    first.enums.trans second.enums, first.interfaces.trans second.interfaces⟩

theorem Extends.enum? (ext : r.Extends r') {id : EnumId} {d : EnumDescriptor}
    (found : r.enum? id = some d) : r'.enum? id = some d := by
  obtain ⟨bound, rfl⟩ := List.getElem?_eq_some_iff.mp found
  exact List.prefix_iff_getElem?.mp ext.enums _ bound

theorem Extends.interface? (ext : r.Extends r') {id : InterfaceId} {d : InterfaceDescriptor}
    (found : r.interface? id = some d) : r'.interface? id = some d := by
  obtain ⟨bound, rfl⟩ := List.getElem?_eq_some_iff.mp found
  exact List.prefix_iff_getElem?.mp ext.interfaces _ bound

theorem extends_commit (r : Registry) (enums : List EnumDescriptor)
    (interfaces : List InterfaceDescriptor) : r.Extends (r.commit enums interfaces) := by
  refine ⟨fun name key found => ?_, List.prefix_append _ _, List.prefix_append _ _⟩
  change r.names.lookup name = some key at found
  simp [lookup?, Registry.commit, List.lookup_append, found]

theorem extends_loadAll (r : Registry) (ms : List Model) : r.Extends (r.loadAll ms) := by
  refine loadAll_induction (Extends.refl r) ?_ ms
  intro _ _ _ _ ext h
  obtain ⟨enums, interfaces, _, _, rfl⟩ := load_eq_ok_iff.mp h
  exact ext.trans (extends_commit _ enums interfaces)

/-! ### One load -/

/-- What a load adds and what it reports. -/
structure Loads (r : Registry) (m : Model) (l : Loaded) (r' : Registry) : Prop where
  extended : r.Extends r'
  enums_length : r'.enums.length = r.enums.length + (r.unregistered (m.enums.map (·.name))).length
  interfaces_length : r'.interfaces.length =
    r.interfaces.length + (r.unregistered (m.interfaces.map (·.name))).length
  /-- The new enumerations get the next places in the order of their declaration. -/
  enums_next : ∀ (i : Nat) (name : String),
    (r.unregistered (m.enums.map (·.name)))[i]? = some name →
    r'.lookup? name = some (.enumeration ⟨r.enums.length + i⟩)
  /-- The new interfaces get the next places in the order of their declaration. -/
  interfaces_next : ∀ (i : Nat) (name : String),
    (r.unregistered (m.interfaces.map (·.name)))[i]? = some name →
    r'.lookup? name = some (.interface ⟨r.interfaces.length + i⟩)
  space_eq : l.space = m.space
  enums_listed : List.Forall₂ (fun decl p => p.1 = decl.name ∧
    r'.lookup? decl.name = some (.enumeration p.2)) m.enums l.enums
  interfaces_listed : List.Forall₂ (fun decl p => p.1 = decl.name ∧
    r'.lookup? decl.name = some (.interface p.2)) m.interfaces l.interfaces

theorem Admits.loads (admits : r.Admits m enums interfaces) (indexed : r.Indexed) :
    r.Loads m (report m enums interfaces) (r.commit enums interfaces) where
  extended := extends_commit r enums interfaces
  enums_length := by
    rw [← length_of_numbered (admits.freshEnums_entries indexed.holds)]
    exact List.length_append
  interfaces_length := by
    rw [← length_of_numbered (admits.freshInterfaces_entries indexed.holds)]
    exact List.length_append
  enums_next := by
    intro i name h
    rw [lookup?, lookup_eq_some_iff_mem (indexed.commit admits).names_nodup,
      admits.commit_names indexed.holds, additions]
    exact List.mem_append_right _ (List.mem_append_left _ (mem_numbered_of_getElem? h))
  interfaces_next := by
    intro i name h
    rw [lookup?, lookup_eq_some_iff_mem (indexed.commit admits).names_nodup,
      admits.commit_names indexed.holds, additions]
    exact List.mem_append_right _ (List.mem_append_right _ (mem_numbered_of_getElem? h))
  space_eq := rfl
  enums_listed := by
    rw [admits.lookup?_commit indexed.holds]
    refine List.forall₂_map_right_iff.mpr (admits.enums_described.imp fun decl d h => ?_)
    exact ⟨h.2.1.name_eq, h.1⟩
  interfaces_listed := by
    rw [admits.lookup?_commit indexed.holds]
    refine List.forall₂_map_right_iff.mpr (admits.interfaces_described.imp fun decl d h => ?_)
    exact ⟨h.2.1.name_eq, h.1⟩

/-! ### Loading again -/

/-- A descriptor is found at its place in a table that is continued by those behind it, whether it
was there or was added. -/
theorem getElem?_append_fresh {δ : Type} {indexOf : δ → Nat} {table ds : List δ}
    (numbered : ∀ i d, (ds.filter fun d => table.length ≤ indexOf d)[i]? = some d →
      indexOf d = table.length + i)
    (kept : ∀ d ∈ ds, ∀ old, table[indexOf d]? = some old → old = d) {d : δ} (member : d ∈ ds) :
    (table ++ ds.filter fun d => table.length ≤ indexOf d)[indexOf d]? = some d := by
  by_cases new : table.length ≤ indexOf d
  · have fresh : d ∈ ds.filter fun d => table.length ≤ indexOf d := by simp [member, new]
    obtain ⟨i, hi⟩ := List.getElem?_of_mem fresh
    rw [numbered i d hi, List.getElem?_append_right (by omega), Nat.add_sub_cancel_left, hi]
  · have bound : indexOf d < table.length := by omega
    have found := List.getElem?_eq_getElem bound
    rw [List.getElem?_append_left bound, found, kept d member _ found]

theorem Admits.enum?_commit (admits : r.Admits m enums interfaces) (indexed : r.Indexed)
    {d : EnumDescriptor} (member : d ∈ enums) :
    (r.commit enums interfaces).enum? d.id = some d := by
  refine getElem?_append_fresh (fun i d hi => ?_) admits.enums_kept member
  rw [admits.freshEnums_id indexed.holds hi]

theorem Admits.interface?_commit (admits : r.Admits m enums interfaces) (indexed : r.Indexed)
    {d : InterfaceDescriptor} (member : d ∈ interfaces) :
    (r.commit enums interfaces).interface? d.id = some d := by
  refine getElem?_append_fresh (fun i d hi => ?_) admits.interfaces_kept member
  rw [admits.freshInterfaces_id indexed.holds hi]

/-- A registry that has grown since the model was loaded admits it with the same descriptors. -/
theorem Admits.of_extends (admits : r.Admits m enums interfaces) (indexed : r.Indexed)
    (ext : (r.commit enums interfaces).Extends r') : r'.Admits m enums interfaces := by
  have kept : ∀ name key, r.scope m name = some key → r'.scope m name = some key := by
    intro name key found
    rw [← admits.lookup?_commit indexed.holds] at found
    rw [scope, ext.lookup name key found, Option.some_or]
  refine ⟨admits.names_nodup, ?_, ?_, ?_, ?_⟩
  · refine admits.enums_described.imp fun decl d h => ?_
    exact ⟨kept _ _ h.1, h.2⟩
  · refine admits.interfaces_described.imp fun decl d h => ?_
    exact ⟨kept _ _ h.1, h.2.1.mono kept, h.2.2⟩
  · intro d hd old hold
    exact Option.some.inj (hold.symm.trans (ext.enum? (admits.enum?_commit indexed hd)))
  · intro d hd old hold
    exact Option.some.inj (hold.symm.trans (ext.interface? (admits.interface?_commit indexed hd)))

/-- Nothing is added to tables that hold every descriptor. -/
theorem commit_eq_self (enums_held : ∀ d ∈ enums, r.enum? d.id = some d)
    (interfaces_held : ∀ d ∈ interfaces, r.interface? d.id = some d) :
    r.commit enums interfaces = r := by
  have no_enums : r.freshEnums enums = [] := by
    refine List.filter_eq_nil_iff.mpr fun d hd => ?_
    have := (List.getElem?_eq_some_iff.mp (enums_held d hd)).1
    simpa using this
  have no_interfaces : r.freshInterfaces interfaces = [] := by
    refine List.filter_eq_nil_iff.mpr fun d hd => ?_
    have := (List.getElem?_eq_some_iff.mp (interfaces_held d hd)).1
    simpa using this
  unfold freshEnums at no_enums
  unfold freshInterfaces at no_interfaces
  simp [Registry.commit, no_enums, no_interfaces]

theorem Admits.load_again (admits : r.Admits m enums interfaces) (indexed : r.Indexed)
    (ext : (r.commit enums interfaces).Extends r') :
    r'.load m = .ok (report m enums interfaces, r') := by
  refine load_eq_ok_iff.mpr ⟨enums, interfaces, admits.of_extends indexed ext, rfl, ?_⟩
  refine (commit_eq_self ?_ ?_).symm
  · exact fun d hd => ext.enum? (admits.enum?_commit indexed hd)
  · exact fun d hd => ext.interface? (admits.interface?_commit indexed hd)

/-- Loading is atomic, append-only and idempotent: an attempt that fails leaves the registry as it
was; one that succeeds extends it and reports where the declared names are; and after any further
attempts the same model is loaded with the same report into the same registry. -/
theorem register_grows (ms : List Model) (m : Model) :
    (∀ cause, ((loadAll {} ms).register m).1 = .error cause →
      ((loadAll {} ms).register m).2 = loadAll {} ms) ∧
    ∀ l r', (loadAll {} ms).register m = (.ok l, r') →
      (loadAll {} ms).Loads m l r' ∧
      ∀ later, (r'.loadAll later).register m = (.ok l, r'.loadAll later) := by
  have indexed := (wellFormed_empty.loadAll ms).toIndexed
  constructor
  · intro cause failed
    unfold register at failed ⊢
    split at failed <;> simp_all
  · intro l r' h
    obtain ⟨enums, interfaces, admits, rfl, rfl⟩ := load_eq_ok_iff.mp (register_eq_ok_iff.mp h)
    refine ⟨admits.loads indexed, fun later => ?_⟩
    exact register_eq_ok_iff.mpr (admits.load_again indexed (extends_loadAll _ later))

theorem taskModel_loaded_again :
    TaskModel.registry.register TaskModel.model = (.ok TaskModel.loaded, TaskModel.registry) :=
  ((register_grows [] TaskModel.model).2 _ _ (register_eq_ok_iff.mpr TaskModel.load_model)).2 []

end Registry

end ObjectBoundary
