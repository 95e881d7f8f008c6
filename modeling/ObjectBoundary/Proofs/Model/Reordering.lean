import Mathlib.Data.List.Perm.Basic
import ObjectBoundary.Proofs.Model.Growth
import ObjectBoundary.Proofs.Model.Renumbering
import ObjectBoundary.Proofs.Model.Validity

/-!
# The order of declarations

The declarations of a model can refer to each other in any order, and their order decides only the
places that they get. So a model can be loaded when it can be loaded with its enumerations and its
interfaces in another order, and what is then registered is the same up to a renumbering of what is
new.
-/

namespace ObjectBoundary

namespace Registry

variable {r : Registry} {m m' : Model} {name : String} {key : Nat → TypeKey} {next : Nat}
  {names names' : List String}

/-! ### Places by name -/

/-- The place that the name of a place gets when the names are numbered in another order. Places
before `next` are taken and stay. -/
def renumber (r : Registry) (next : Nat) (names names' : List String) (place : Nat) : Nat :=
  if place < next then place
  else
    match (r.unregistered names)[place - next]? with
    | some name => next + (r.unregistered names').idxOf name
    | none => place

/-- The places of a model, changed to those of another one with the same names. -/
def renumbering (r : Registry) (m m' : Model) : Renumbering where
  enum id := ⟨r.renumber r.enums.length (m.enums.map (·.name)) (m'.enums.map (·.name)) id.index⟩
  interface id :=
    ⟨r.renumber r.interfaces.length (m.interfaces.map (·.name)) (m'.interfaces.map (·.name))
      id.index⟩

/-- A new name has the place that it has among the new names. -/
theorem lookup_numbered :
    (r.numbered key next names).lookup name =
      if name ∈ r.unregistered names then some (key (next + (r.unregistered names).idxOf name))
      else none := by
  induction names generalizing next with
  | nil => rfl
  | cons first rest ih =>
    cases registered : r.lookup? first with
    | some found =>
      have same : r.unregistered (first :: rest) = r.unregistered rest := by
        simp [unregistered, registered]
      rw [numbered_cons_of_some registered, ih, same]
    | none =>
      have new : r.unregistered (first :: rest) = first :: r.unregistered rest := by
        simp [unregistered, registered]
      rw [numbered_cons_of_none registered, List.lookup_cons, new]
      by_cases same : name = first
      · subst same
        simp
      · have apart : first ≠ name := fun h => same h.symm
        rw [beq_eq_false_iff_ne.mpr same, ih]
        simp [same, List.idxOf_cons_ne _ apart, Nat.add_assoc, Nat.add_comm 1]

theorem mem_unregistered_perm (perm : names.Perm names') :
    name ∈ r.unregistered names' ↔ name ∈ r.unregistered names :=
  (perm.filter _).mem_iff.symm

theorem renumber_idxOf (member : name ∈ r.unregistered names) :
    r.renumber next names names' (next + (r.unregistered names).idxOf name) =
      next + (r.unregistered names').idxOf name := by
  have bound := List.idxOf_lt_length_of_mem member
  have found : (r.unregistered names)[(r.unregistered names).idxOf name]? = some name := by
    rw [List.getElem?_eq_getElem bound, List.getElem_idxOf]
  rw [renumber, if_neg (by omega), Nat.add_sub_cancel_left, found]

/-- In another order a new name has the place that its place is changed to. -/
theorem lookup_numbered_perm (σ : Renumbering) (perm : names.Perm names')
    (moved : ∀ i, σ.key (key i) = key (r.renumber next names names' i)) :
    (r.numbered key next names').lookup name =
      ((r.numbered key next names).lookup name).map σ.key := by
  rw [lookup_numbered, lookup_numbered]
  by_cases member : name ∈ r.unregistered names
  · rw [if_pos ((mem_unregistered_perm perm).mpr member), if_pos member, Option.map_some, moved,
      renumber_idxOf member]
  · rw [if_neg (mt (mem_unregistered_perm perm).mp member), if_neg member, Option.map_none]

/-- What is registered stays in its place. -/
theorem renumbering_of_holds (m m' : Model) {key : TypeKey} (held : r.Holds key) :
    (r.renumbering m m').key key = key := by
  cases key with
  | interface id =>
    have bound : id.index < r.interfaces.length := held
    simp [Renumbering.key, renumbering, renumber, bound]
  | enumeration id =>
    have bound : id.index < r.enums.length := held
    simp [Renumbering.key, renumbering, renumber, bound]

section

variable (indexed : r.Indexed) (permEnums : m.enums.Perm m'.enums)
  (permInterfaces : m.interfaces.Perm m'.interfaces)

include indexed permEnums permInterfaces

/-- In another order the names of a model stand for what they stood for, renumbered. -/
theorem scope_perm (name : String) :
    r.scope m' name = (r.scope m name).map (r.renumbering m m').key := by
  unfold scope
  cases registered : r.lookup? name with
  | some key =>
    rw [Option.some_or, Option.some_or, Option.map_some,
      renumbering_of_holds m m' (indexed.holds name key registered)]
  | none =>
    have enums : (r.numbered (fun i => .enumeration ⟨i⟩) r.enums.length
        (m'.enums.map (·.name))).lookup name = _ :=
      lookup_numbered_perm (r.renumbering m m') (permEnums.map (·.name)) fun _ => rfl
    have interfaces : (r.numbered (fun i => .interface ⟨i⟩) r.interfaces.length
        (m'.interfaces.map (·.name))).lookup name = _ :=
      lookup_numbered_perm (r.renumbering m m') (permInterfaces.map (·.name)) fun _ => rfl
    rw [Option.none_or, Option.none_or, additions, additions, List.lookup_append,
      List.lookup_append, enums, interfaces, Option.map_or]

end

/-! ### Loading in another order -/

/-- A place of the scope that is taken belongs to a name that is registered. -/
theorem lookup?_of_holds {key : TypeKey} (placed : r.scope m name = some key)
    (held : r.Holds key) : r.lookup? name = some key := by
  cases key with
  | interface id =>
    have bound : id.index < r.interfaces.length := held
    rcases scope_eq_interface placed with registered | ⟨_, new⟩
    · exact registered
    · omega
  | enumeration id =>
    have bound : id.index < r.enums.length := held
    rcases scope_eq_enumeration placed with registered | ⟨_, new⟩
    · exact registered
    · omega

/-- The interfaces that are registered do not change. -/
theorem renumbering_interface (wf : r.WellFormed) {d : InterfaceDescriptor}
    (member : d ∈ r.interfaces) : (r.renumbering m m').interfaceDescriptor d = d := by
  obtain ⟨i, found⟩ := List.getElem?_of_mem member
  have held : r.Holds (.interface d.id) := by
    rw [wf.interface_id i d found]
    exact (List.getElem?_eq_some_iff.mp found).1
  have fixed := TypeKey.interface.inj (renumbering_of_holds m m' held)
  refine Renumbering.interfaceDescriptor_eq_self _ fixed fun ty hty => ?_
  refine Renumbering.ty_eq_self _ fun key occurs => ?_
  exact renumbering_of_holds m m' (wf.types_held d member ty hty key occurs)

namespace Admits

variable {enums enums' : List EnumDescriptor} {interfaces interfaces' : List InterfaceDescriptor}
  (admits : r.Admits m enums interfaces) (wf : r.WellFormed)
  (permEnums : m.enums.Perm m'.enums) (permInterfaces : m.interfaces.Perm m'.interfaces)

include wf permEnums permInterfaces

omit admits in
/-- No new place is changed to one that is taken. -/
theorem renumbering_eq_self {key : TypeKey} (placed : r.scope m name = some key)
    (held : r.Holds ((r.renumbering m m').key key)) : (r.renumbering m m').key key = key := by
  have moved := scope_perm wf.toIndexed permEnums permInterfaces name
  rw [placed, Option.map_some] at moved
  have registered := lookup?_of_holds moved held
  rw [scope, registered, Option.some_or] at placed
  exact Option.some.inj placed

include admits

theorem enums_kept_perm {d old : EnumDescriptor} (member : d ∈ enums)
    (found : r.enum? ((r.renumbering m m').enumDescriptor d).id = some old) :
    old = (r.renumbering m m').enumDescriptor d := by
  have held : r.Holds (.enumeration ((r.renumbering m m').enum d.id)) :=
    (List.getElem?_eq_some_iff.mp found).1
  have fixed := TypeKey.enumeration.inj
    (renumbering_eq_self wf permEnums permInterfaces (admits.enum_placed member) held)
  rw [Renumbering.enumDescriptor_eq_self _ fixed] at found ⊢
  exact admits.enums_kept d member old found

theorem interfaces_kept_perm {d old : InterfaceDescriptor} (member : d ∈ interfaces)
    (found : r.interface? ((r.renumbering m m').interfaceDescriptor d).id = some old) :
    old = (r.renumbering m m').interfaceDescriptor d := by
  have held : r.Holds (.interface ((r.renumbering m m').interface d.id)) :=
    (List.getElem?_eq_some_iff.mp found).1
  have fixed := TypeKey.interface.inj
    (renumbering_eq_self wf permEnums permInterfaces (admits.interface_placed member) held)
  change r.interface? ((r.renumbering m m').interface d.id) = some old at found
  rw [fixed] at found
  have same := admits.interfaces_kept d member old found
  subst same
  exact (renumbering_interface wf (List.mem_of_getElem? found)).symm

/-- A registry that admits a model admits it in another order, with the descriptors renumbered. -/
theorem perm : ∃ enums' interfaces',
    enums'.Perm (enums.map (r.renumbering m m').enumDescriptor) ∧
      interfaces'.Perm (interfaces.map (r.renumbering m m').interfaceDescriptor) ∧
      r.Admits m' enums' interfaces' := by
  have moved := scope_perm wf.toIndexed permEnums permInterfaces
  obtain ⟨es, enumsDescribed, permEs⟩ :=
    List.perm_comp_forall₂ permEnums.symm admits.enums_described
  obtain ⟨is, interfacesDescribed, permIs⟩ :=
    List.perm_comp_forall₂ permInterfaces.symm admits.interfaces_described
  refine ⟨es.map (r.renumbering m m').enumDescriptor,
    is.map (r.renumbering m m').interfaceDescriptor, permEs.map _, permIs.map _, ?_, ?_, ?_, ?_, ?_⟩
  · have names : m.names.Perm m'.names := (permEnums.map _).append (permInterfaces.map _)
    exact names.nodup_iff.mp admits.names_nodup
  · refine List.forall₂_map_right_iff.mpr (enumsDescribed.imp ?_)
    rintro decl d ⟨placed, denotes, allowed⟩
    refine ⟨?_, Renumbering.denotes_enum _ denotes, Renumbering.allowed_enum _ allowed⟩
    rw [moved, placed]
    rfl
  · refine List.forall₂_map_right_iff.mpr (interfacesDescribed.imp ?_)
    rintro decl d ⟨placed, denotes, allowed⟩
    refine ⟨?_, Renumbering.denotes_interface moved denotes,
      Renumbering.allowed_interface _ allowed⟩
    rw [moved, placed]
    rfl
  · intro d hd old found
    obtain ⟨e, he, rfl⟩ := List.mem_map.mp hd
    exact admits.enums_kept_perm wf permEnums permInterfaces (permEs.mem_iff.mp he) found
  · intro d hd old found
    obtain ⟨e, he, rfl⟩ := List.mem_map.mp hd
    exact admits.interfaces_kept_perm wf permEnums permInterfaces (permIs.mem_iff.mp he) found

section

variable (admits' : r.Admits m' enums' interfaces')

include admits'

omit permEnums permInterfaces in
theorem enum?_commit_perm (permEs : enums'.Perm (enums.map (r.renumbering m m').enumDescriptor))
    {id : EnumId} (placed : r.scope m name = some (.enumeration id)) :
    (r.commit enums' interfaces').enum? ((r.renumbering m m').enum id) =
      ((r.commit enums interfaces).enum? id).map (r.renumbering m m').enumDescriptor := by
  have indexed := wf.toIndexed
  rcases scope_eq_enumeration placed with registered | ⟨declared, _⟩
  · have fixed := TypeKey.enumeration.inj
      (renumbering_of_holds m m' (indexed.holds _ _ registered))
    obtain ⟨d, found, _⟩ := (indexed.lookup_enum _ _).mp registered
    have own : d.id = id := indexed.enum_id id.index d found
    rw [fixed, (extends_commit r enums interfaces).enum? found,
      (extends_commit r enums' interfaces').enum? found, Option.map_some,
      Renumbering.enumDescriptor_eq_self _ (own ▸ fixed)]
  · rw [← admits.enum_names] at declared
    obtain ⟨d, hd, rfl⟩ := List.mem_map.mp declared
    cases placed.symm.trans (admits.enum_placed hd)
    have member := permEs.mem_iff.mpr (List.mem_map.mpr ⟨d, hd, rfl⟩)
    rw [admits.enum?_commit indexed hd, Option.map_some]
    exact admits'.enum?_commit indexed member

omit permEnums permInterfaces in
theorem interface?_commit_perm
    (permIs : interfaces'.Perm (interfaces.map (r.renumbering m m').interfaceDescriptor))
    {id : InterfaceId} (placed : r.scope m name = some (.interface id)) :
    (r.commit enums' interfaces').interface? ((r.renumbering m m').interface id) =
      ((r.commit enums interfaces).interface? id).map
        (r.renumbering m m').interfaceDescriptor := by
  have indexed := wf.toIndexed
  rcases scope_eq_interface placed with registered | ⟨declared, _⟩
  · have fixed := TypeKey.interface.inj
      (renumbering_of_holds m m' (indexed.holds _ _ registered))
    obtain ⟨d, found, _⟩ := (indexed.lookup_interface _ _).mp registered
    rw [fixed, (extends_commit r enums interfaces).interface? found,
      (extends_commit r enums' interfaces').interface? found, Option.map_some,
      renumbering_interface wf (List.mem_of_getElem? found)]
  · rw [← admits.interface_names] at declared
    obtain ⟨d, hd, rfl⟩ := List.mem_map.mp declared
    cases placed.symm.trans (admits.interface_placed hd)
    have member := permIs.mem_iff.mpr (List.mem_map.mpr ⟨d, hd, rfl⟩)
    rw [admits.interface?_commit indexed hd, Option.map_some]
    exact admits'.interface?_commit indexed member

/-- What is registered in another order is the same in other places. -/
theorem renumbered (permEs : enums'.Perm (enums.map (r.renumbering m m').enumDescriptor))
    (permIs : interfaces'.Perm (interfaces.map (r.renumbering m m').interfaceDescriptor)) :
    Renumbered (r.renumbering m m') (r.commit enums interfaces) (r.commit enums' interfaces') := by
  have holds := wf.toIndexed.holds
  have moved := scope_perm wf.toIndexed permEnums permInterfaces
  refine ⟨fun name => ?_, fun name => ?_, fun name => ?_⟩
  · rw [admits.lookup?_commit holds, admits'.lookup?_commit holds, moved]
  · rw [enumByName?, enumByName?, admits.lookup?_commit holds, admits'.lookup?_commit holds, moved]
    cases placed : r.scope m name with
    | none => rfl
    | some key =>
      cases key with
      | interface id => rfl
      | enumeration id => exact admits.enum?_commit_perm wf admits' permEs placed
  · rw [interfaceByName?, interfaceByName?, admits.lookup?_commit holds,
      admits'.lookup?_commit holds, moved]
    cases placed : r.scope m name with
    | none => rfl
    | some key =>
      cases key with
      | enumeration id => rfl
      | interface id => exact admits.interface?_commit_perm wf admits' permIs placed

end

end Admits

/-- A model that can be loaded can be loaded in another order, into a renumbered registry. -/
theorem load_perm (m' : Model) (wf : r.WellFormed) (permEnums : m.enums.Perm m'.enums)
    (permInterfaces : m.interfaces.Perm m'.interfaces) {l : Loaded} {s : Registry}
    (loaded : r.load m = .ok (l, s)) :
    ∃ l' s', r.load m' = .ok (l', s') ∧ Renumbered (r.renumbering m m') s s' := by
  obtain ⟨enums, interfaces, admits, _, rfl⟩ := load_eq_ok_iff.mp loaded
  obtain ⟨enums', interfaces', permEs, permIs, admits'⟩ := admits.perm wf permEnums permInterfaces
  exact ⟨_, _, load_eq_ok_iff.mpr ⟨enums', interfaces', admits', rfl, rfl⟩,
    admits.renumbered wf permEnums permInterfaces admits' permEs permIs⟩

/-- The order of declarations decides the places of what is new and nothing else. After any attempts
to load models, a model can be loaded exactly when it can be with its enumerations and its
interfaces in another order. The registries that result have the same names for the same kinds, and
what stands under a name can be declared alike; they are equal up to a renumbering that leaves every
place taken before as it is. -/
theorem load_succeeds_in_any_order (ms : List Model) (m : Model) {enums : List EnumDecl}
    {interfaces : List InterfaceDecl} (permEnums : m.enums.Perm enums)
    (permInterfaces : m.interfaces.Perm interfaces) :
    ((∃ l s, (loadAll {} ms).load m = .ok (l, s)) ↔
      ∃ l s, (loadAll {} ms).load { m with enums, interfaces } = .ok (l, s)) ∧
    ∀ l s l' s', (loadAll {} ms).load m = .ok (l, s) →
      (loadAll {} ms).load { m with enums, interfaces } = .ok (l', s') →
      s.Agrees s' ∧
      ∃ σ, Renumbered σ s s' ∧ (∀ key, (loadAll {} ms).Holds key → σ.key key = key) ∧
        ∀ key key', s.Holds key → s.Holds key' → σ.key key = σ.key key' → key = key' := by
  have wf := wellFormed_empty.loadAll ms
  constructor
  · constructor
    · rintro ⟨l, s, loaded⟩
      obtain ⟨l', s', loaded', _⟩ :=
        load_perm { m with enums, interfaces } wf permEnums permInterfaces loaded
      exact ⟨l', s', loaded'⟩
    · rintro ⟨l', s', loaded'⟩
      obtain ⟨l, s, loaded, _⟩ := load_perm m wf permEnums.symm permInterfaces.symm loaded'
      exact ⟨l, s, loaded⟩
  · intro l s l' s' loaded loaded'
    obtain ⟨l'', s'', again, renumbered⟩ :=
      load_perm { m with enums, interfaces } wf permEnums permInterfaces loaded
    cases loaded'.symm.trans again
    have wf' := wf.load loaded
    refine ⟨renumbered.agrees wf', _, renumbered, fun key held => renumbering_of_holds _ _ held, ?_⟩
    intro key key' held held' same
    exact renumbered.injective wf'.toIndexed (wf.load loaded').toIndexed held held' same

theorem taskModel_loaded_in_reverse :
    ∃ l s, ({} : Registry).load { TaskModel.model with
        enums := TaskModel.model.enums.reverse
        interfaces := TaskModel.model.interfaces.reverse } = .ok (l, s) ∧
      TaskModel.registry.Agrees s := by
  have reordered := load_succeeds_in_any_order [] TaskModel.model
    (List.reverse_perm TaskModel.model.enums).symm
    (List.reverse_perm TaskModel.model.interfaces).symm
  obtain ⟨l, s, loaded⟩ := reordered.1.mp ⟨_, _, TaskModel.load_model⟩
  exact ⟨l, s, loaded, (reordered.2 _ _ l s TaskModel.load_model loaded).1⟩

end Registry

end ObjectBoundary
