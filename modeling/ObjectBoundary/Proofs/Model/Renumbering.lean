import ObjectBoundary.Proofs.Model.WellFormed

/-!
# Renumbering

The places of enumerations and interfaces are numbers that are given out in the order of
declaration. A renumbering changes them wherever they stand: in keys, in types and in descriptors.
What a text spells, what a declaration denotes and which rules a descriptor keeps do not depend on
the numbers, and neither does the spelling of a type.
-/

namespace ObjectBoundary

/-- Other places for the enumerations and the interfaces. -/
structure Renumbering where
  enum : EnumId → EnumId
  interface : InterfaceId → InterfaceId

namespace Renumbering

variable (σ : Renumbering)

def key : TypeKey → TypeKey
  | .interface id => .interface (σ.interface id)
  | .enumeration id => .enumeration (σ.enum id)

def ty (σ : Renumbering) : Ty → Ty
  | .enumeration id => .enumeration (σ.enum id)
  | .interface id => .interface (σ.interface id)
  | .array elem => .array (ty σ elem)
  | .set elem => .set (ty σ elem)
  | .dict key elem => .dict (ty σ key) (ty σ elem)
  | primitive => primitive

def property (p : Property) : Property := { p with ty := σ.ty p.ty }

def parameter (p : Parameter) : Parameter := { p with ty := σ.ty p.ty }

def method (m : Method) : Method :=
  { m with parameters := m.parameters.map σ.parameter, returns := σ.ty m.returns }

def interfaceDescriptor (d : InterfaceDescriptor) : InterfaceDescriptor :=
  { d with
    id := σ.interface d.id
    properties := d.properties.map σ.property
    methods := d.methods.map σ.method }

def enumDescriptor (d : EnumDescriptor) : EnumDescriptor := { d with id := σ.enum d.id }

/-! ### Types -/

theorem ty_key (key : TypeKey) : σ.ty key.ty = (σ.key key).ty := by
  cases key <;> rfl

theorem ty_primitive {name : String} {ty : Ty} (h : Ty.primitive? name = some ty) :
    σ.ty ty = ty := by
  rw [Ty.primitive?_eq_some_iff] at h
  simp only [List.mem_cons, Prod.mk.injEq, List.not_mem_nil, or_false] at h
  rcases h with ⟨_, rfl⟩ | ⟨_, rfl⟩ | ⟨_, rfl⟩ | ⟨_, rfl⟩ | ⟨_, rfl⟩ | ⟨_, rfl⟩ | ⟨_, rfl⟩ <;> rfl

@[simp]
theorem ty_eq_void_iff (ty : Ty) : σ.ty ty = .void ↔ ty = .void := by
  cases ty <;> simp [Renumbering.ty]

@[simp]
theorem isKey_ty (ty : Ty) : (σ.ty ty).isKey = ty.isKey := by
  cases ty <;> rfl

theorem parts_ty (ty : Ty) : (σ.ty ty).parts = ty.parts.map σ.ty := by
  induction ty with
  | array elem ih => simp [Renumbering.ty, Ty.parts, ih]
  | set elem ih => simp [Renumbering.ty, Ty.parts, ih]
  | dict key elem ihKey ihElem => simp [Renumbering.ty, Ty.parts, ihKey, ihElem]
  | _ => rfl

theorem void_mem_parts_ty_iff (ty : Ty) : .void ∈ (σ.ty ty).parts ↔ .void ∈ ty.parts := by
  rw [parts_ty, List.mem_map]
  constructor
  · rintro ⟨part, member, same⟩
    rwa [← (σ.ty_eq_void_iff part).mp same]
  · intro member
    exact ⟨.void, member, rfl⟩

theorem keysAllowed_ty {ty : Ty} (allowed : ty.KeysAllowed) : (σ.ty ty).KeysAllowed := by
  intro key elem member
  rw [parts_ty, List.mem_map] at member
  obtain ⟨part, member, same⟩ := member
  cases part with
  | dict key' elem' =>
    obtain ⟨rfl, rfl⟩ := Ty.dict.inj same
    rw [isKey_ty]
    exact allowed key' elem' member
  | _ => cases same

theorem ofValues_ty {ty : Ty} (values : ty.OfValues) : (σ.ty ty).OfValues :=
  ⟨mt (σ.void_mem_parts_ty_iff ty).mp values.void_free, σ.keysAllowed_ty values.keys⟩

/-- A type does not change when the places that occur in it do not. -/
theorem ty_eq_self {ty : Ty} (fixed : ∀ key : TypeKey, key.ty ∈ ty.parts → σ.key key = key) :
    σ.ty ty = ty := by
  induction ty with
  | enumeration id =>
    have same := fixed (.enumeration id) (Ty.self_mem_parts _)
    exact congrArg TypeKey.ty same
  | interface id =>
    have same := fixed (.interface id) (Ty.self_mem_parts _)
    exact congrArg TypeKey.ty same
  | array elem ih =>
    have inner := ih fun key member => fixed key (List.mem_cons_of_mem _ member)
    rw [Renumbering.ty, inner]
  | set elem ih =>
    have inner := ih fun key member => fixed key (List.mem_cons_of_mem _ member)
    rw [Renumbering.ty, inner]
  | dict key elem ihKey ihElem =>
    have first := ihKey fun k member =>
      fixed k (List.mem_cons_of_mem _ (List.mem_append_left _ member))
    have second := ihElem fun k member =>
      fixed k (List.mem_cons_of_mem _ (List.mem_append_right _ member))
    rw [Renumbering.ty, first, second]
  | _ => rfl

/-! ### Declarations -/

section

variable {σ} {lookup lookup' : String → Option TypeKey}
  (moved : ∀ name, lookup' name = (lookup name).map σ.key)

include moved

/-- What an expression denotes is renumbered with the names in it. -/
theorem denote? {e : TypeExpr} {ty : Ty} (denotes : e.denote? lookup = some ty) :
    e.denote? lookup' = some (σ.ty ty) := by
  induction e generalizing ty with
  | named name =>
    rw [TypeExpr.denote?_named] at denotes ⊢
    rcases denotes with primitive | ⟨other, key, found, rfl⟩
    · rw [σ.ty_primitive primitive]
      exact .inl primitive
    · refine .inr ⟨other, σ.key key, ?_, σ.ty_key key⟩
      rw [moved, found, Option.map_some]
  | array elem ih =>
    obtain ⟨inner, hinner, rfl⟩ := (TypeExpr.denote?_array elem ty).mp denotes
    exact (TypeExpr.denote?_array elem _).mpr ⟨σ.ty inner, ih hinner, rfl⟩
  | set elem ih =>
    obtain ⟨inner, hinner, rfl⟩ := (TypeExpr.denote?_set elem ty).mp denotes
    exact (TypeExpr.denote?_set elem _).mpr ⟨σ.ty inner, ih hinner, rfl⟩
  | dict key elem ihKey ihElem =>
    obtain ⟨k, inner, hk, hinner, rfl⟩ := (TypeExpr.denote?_dict key elem ty).mp denotes
    exact (TypeExpr.denote?_dict key elem _).mpr
      ⟨σ.ty k, σ.ty inner, ihKey hk, ihElem hinner, rfl⟩

theorem spells {text : String} {ty : Ty} (h : Spells lookup text ty) :
    Spells lookup' text (σ.ty ty) := by
  obtain ⟨e, parsed, denotes⟩ := h
  exact ⟨e, parsed, denote? moved denotes⟩

theorem denotes_method {decl : MethodDecl} {m : Method} (h : decl.Denotes lookup m) :
    decl.Denotes lookup' (σ.method m) := by
  refine ⟨h.name_eq, spells moved h.returns, ?_⟩
  refine List.forall₂_map_right_iff.mpr (h.parameters.imp fun p q hq => ?_)
  exact ⟨hq.name_eq, spells moved hq.type⟩

/-- What a declaration denotes is renumbered with the names in it. -/
theorem denotes_interface {decl : InterfaceDecl} {d : InterfaceDescriptor}
    (h : decl.Denotes lookup d.id d) :
    decl.Denotes lookup' (σ.interfaceDescriptor d).id (σ.interfaceDescriptor d) := by
  refine ⟨rfl, h.name_eq, ?_, ?_⟩
  · refine List.forall₂_map_right_iff.mpr (h.properties.imp fun p q hq => ?_)
    exact ⟨hq.name_eq, spells moved hq.type, hq.readOnly_eq⟩
  · exact List.forall₂_map_right_iff.mpr (h.methods.imp fun _ _ => denotes_method moved)

end

theorem denotes_enum {decl : EnumDecl} {d : EnumDescriptor} (h : decl.Denotes d.id d) :
    decl.Denotes (σ.enumDescriptor d).id (σ.enumDescriptor d) :=
  ⟨rfl, h.name_eq, h.backing_eq, h.values_eq⟩

/-! ### Descriptors -/

theorem allowed_enum {d : EnumDescriptor} (allowed : d.Allowed) : (σ.enumDescriptor d).Allowed :=
  ⟨allowed.values_nodup, allowed.values_fit⟩

theorem allowed_method {m : Method} (allowed : m.Allowed) : (σ.method m).Allowed := by
  refine ⟨?_, σ.keysAllowed_ty allowed.returns_keys, ?_, ?_⟩
  · rcases allowed.returns_void with whole | none
    · exact .inl ((σ.ty_eq_void_iff m.returns).mpr whole)
    · exact .inr (mt (σ.void_mem_parts_ty_iff m.returns).mp none)
  · intro p member
    obtain ⟨q, hq, rfl⟩ := List.mem_map.mp member
    exact σ.ofValues_ty (allowed.parameters q hq)
  · simpa [method, parameter, Function.comp_def] using allowed.parameters_nodup

theorem allowed_interface {d : InterfaceDescriptor} (allowed : d.Allowed) :
    (σ.interfaceDescriptor d).Allowed := by
  refine ⟨?_, ?_, ?_⟩
  · intro p member
    obtain ⟨q, hq, rfl⟩ := List.mem_map.mp member
    exact σ.ofValues_ty (allowed.properties q hq)
  · intro m member
    obtain ⟨n, hn, rfl⟩ := List.mem_map.mp member
    exact σ.allowed_method (allowed.methods n hn)
  · simpa [interfaceDescriptor, property, method, Function.comp_def] using allowed.members_nodup

theorem enumDescriptor_eq_self {d : EnumDescriptor} (fixed : σ.enum d.id = d.id) :
    σ.enumDescriptor d = d := by
  rw [enumDescriptor, fixed]

theorem method_eq_self {m : Method} (returns : σ.ty m.returns = m.returns)
    (parameters : ∀ p ∈ m.parameters, σ.ty p.ty = p.ty) : σ.method m = m := by
  have same : m.parameters.map σ.parameter = m.parameters := by
    refine (List.map_congr_left fun p hp => ?_).trans (List.map_id m.parameters)
    rw [parameter, parameters p hp, id]
  rw [method, returns, same]

/-- An interface does not change when neither its place does nor those in its types. -/
theorem interfaceDescriptor_eq_self {d : InterfaceDescriptor}
    (fixed : σ.interface d.id = d.id) (types : ∀ ty ∈ d.types, σ.ty ty = ty) :
    σ.interfaceDescriptor d = d := by
  have properties : d.properties.map σ.property = d.properties := by
    refine (List.map_congr_left fun p hp => ?_).trans (List.map_id d.properties)
    have member : p.ty ∈ d.types := List.mem_append_left _ (List.mem_map.mpr ⟨p, hp, rfl⟩)
    rw [property, types p.ty member, id]
  have methods : d.methods.map σ.method = d.methods := by
    refine (List.map_congr_left fun m hm => ?_).trans (List.map_id d.methods)
    have member : ∀ ty ∈ m.returns :: m.parameters.map (·.ty), ty ∈ d.types := fun ty h =>
      List.mem_append_right _ (List.mem_flatMap.mpr ⟨m, hm, h⟩)
    refine σ.method_eq_self (types _ (member _ (by simp))) fun p hp => types _ (member _ ?_)
    exact List.mem_cons_of_mem _ (List.mem_map.mpr ⟨p, hp, rfl⟩)
  rw [interfaceDescriptor, fixed, properties, methods]

end Renumbering

/-! ### Registries -/

def TypeKey.isInterface : TypeKey → Bool
  | .interface _ => true
  | .enumeration _ => false

def EnumDescriptor.declaration (d : EnumDescriptor) : EnumDecl where
  name := d.name
  backing := d.backing.name
  values := d.values.map fun v => ⟨v.1, v.2⟩

namespace Registry

variable {r r' : Registry} {σ : Renumbering}

/-- An interface as it can be declared, with the spelling of every type. -/
def declaration (r : Registry) (d : InterfaceDescriptor) : InterfaceDecl where
  name := d.name
  properties := d.properties.map fun p => ⟨p.name, r.typeName p.ty, !p.readOnly⟩
  methods := d.methods.map fun m =>
    ⟨m.name, r.typeName m.returns, m.parameters.map fun p => ⟨p.name, r.typeName p.ty⟩⟩

/-- Two registries have the same names for the same kinds, and what stands under a name can be
declared alike. -/
structure Agrees (r r' : Registry) : Prop where
  kinds : ∀ name, (r'.lookup? name).map TypeKey.isInterface =
    (r.lookup? name).map TypeKey.isInterface
  enums : ∀ name, (r'.enumByName? name).map EnumDescriptor.declaration =
    (r.enumByName? name).map EnumDescriptor.declaration
  interfaces : ∀ name, (r'.interfaceByName? name).map r'.declaration =
    (r.interfaceByName? name).map r.declaration

/-- A registry holds under every name what another one does, in other places. -/
structure Renumbered (σ : Renumbering) (r r' : Registry) : Prop where
  lookup : ∀ name, r'.lookup? name = (r.lookup? name).map σ.key
  enums : ∀ name, r'.enumByName? name = (r.enumByName? name).map σ.enumDescriptor
  interfaces : ∀ name,
    r'.interfaceByName? name = (r.interfaceByName? name).map σ.interfaceDescriptor

theorem enumByName?_eq_some_iff {name : String} {d : EnumDescriptor} :
    r.enumByName? name = some d ↔
      ∃ id, r.lookup? name = some (.enumeration id) ∧ r.enum? id = some d := by
  unfold enumByName?
  cases r.lookup? name with
  | none => simp
  | some key => cases key <;> simp

theorem interfaceByName?_eq_some_iff {name : String} {d : InterfaceDescriptor} :
    r.interfaceByName? name = some d ↔
      ∃ id, r.lookup? name = some (.interface id) ∧ r.interface? id = some d := by
  unfold interfaceByName?
  cases r.lookup? name with
  | none => simp
  | some key => cases key <;> simp

/-- Whatever has a place has a name. -/
theorem Indexed.exists_name (indexed : r.Indexed) {key : TypeKey} (held : r.Holds key) :
    ∃ name, r.lookup? name = some key := by
  cases key with
  | interface id =>
    have found : r.interface? id = some _ := List.getElem?_eq_getElem held
    exact ⟨_, (indexed.lookup_interface _ id).mpr ⟨_, found, rfl⟩⟩
  | enumeration id =>
    have found : r.enum? id = some _ := List.getElem?_eq_getElem held
    exact ⟨_, (indexed.lookup_enum _ id).mpr ⟨_, found, rfl⟩⟩

/-- No two names have the same place. -/
theorem Indexed.name_unique (indexed : r.Indexed) {name other : String} {key : TypeKey}
    (first : r.lookup? name = some key) (second : r.lookup? other = some key) : name = other := by
  cases key with
  | interface id =>
    obtain ⟨d, found, rfl⟩ := (indexed.lookup_interface name id).mp first
    obtain ⟨e, found', rfl⟩ := (indexed.lookup_interface other id).mp second
    cases found.symm.trans found'
    rfl
  | enumeration id =>
    obtain ⟨d, found, rfl⟩ := (indexed.lookup_enum name id).mp first
    obtain ⟨e, found', rfl⟩ := (indexed.lookup_enum other id).mp second
    cases found.symm.trans found'
    rfl

namespace Renumbered

variable (renumbered : Renumbered σ r r') (indexed : r.Indexed)

include renumbered indexed

theorem injective (indexed' : r'.Indexed) {key key' : TypeKey} (held : r.Holds key)
    (held' : r.Holds key') (same : σ.key key = σ.key key') : key = key' := by
  obtain ⟨name, first⟩ := indexed.exists_name held
  obtain ⟨other, second⟩ := indexed.exists_name held'
  have moved : r'.lookup? name = some (σ.key key) := by
    rw [renumbered.lookup, first, Option.map_some]
  have moved' : r'.lookup? other = some (σ.key key) := by
    rw [renumbered.lookup, second, Option.map_some, same]
  rw [indexed'.name_unique moved moved'] at first
  exact Option.some.inj (first.symm.trans second)

theorem enum? {id : EnumId} {d : EnumDescriptor} (found : r.enum? id = some d) :
    r'.enum? (σ.enum id) = some (σ.enumDescriptor d) := by
  have named := (indexed.lookup_enum d.name id).mpr ⟨d, found, rfl⟩
  have moved := renumbered.enums d.name
  rw [enumByName?_eq_some_iff.mpr ⟨id, named, found⟩, Option.map_some] at moved
  obtain ⟨id', named', found'⟩ := enumByName?_eq_some_iff.mp moved
  rw [renumbered.lookup, named] at named'
  cases named'
  exact found'

theorem interface? {id : InterfaceId} {d : InterfaceDescriptor}
    (found : r.interface? id = some d) :
    r'.interface? (σ.interface id) = some (σ.interfaceDescriptor d) := by
  have named := (indexed.lookup_interface d.name id).mpr ⟨d, found, rfl⟩
  have moved := renumbered.interfaces d.name
  rw [interfaceByName?_eq_some_iff.mpr ⟨id, named, found⟩, Option.map_some] at moved
  obtain ⟨id', named', found'⟩ := interfaceByName?_eq_some_iff.mp moved
  rw [renumbered.lookup, named] at named'
  cases named'
  exact found'

/-- The spelling of a type does not depend on the places that occur in it. -/
theorem typeName {ty : Ty} (held : ∀ key : TypeKey, key.ty ∈ ty.parts → r.Holds key) :
    r'.typeName (σ.ty ty) = r.typeName ty := by
  induction ty with
  | enumeration id =>
    have bound : id.index < r.enums.length := held (.enumeration id) (Ty.self_mem_parts _)
    have found : r.enum? id = some r.enums[id.index] := List.getElem?_eq_getElem bound
    simp only [Renumbering.ty, Registry.typeName, renumbered.enum? indexed found, found]
    rfl
  | interface id =>
    have bound : id.index < r.interfaces.length := held (.interface id) (Ty.self_mem_parts _)
    have found : r.interface? id = some r.interfaces[id.index] := List.getElem?_eq_getElem bound
    simp only [Renumbering.ty, Registry.typeName, tagName, renumbered.interface? indexed found,
      found]
    rfl
  | array elem ih =>
    have inner := ih fun key member => held key (List.mem_cons_of_mem _ member)
    rw [Renumbering.ty, Registry.typeName, Registry.typeName, inner]
  | set elem ih =>
    have inner := ih fun key member => held key (List.mem_cons_of_mem _ member)
    rw [Renumbering.ty, Registry.typeName, Registry.typeName, inner]
  | dict key elem ihKey ihElem =>
    have first := ihKey fun k member =>
      held k (List.mem_cons_of_mem _ (List.mem_append_left _ member))
    have second := ihElem fun k member =>
      held k (List.mem_cons_of_mem _ (List.mem_append_right _ member))
    rw [Renumbering.ty, Registry.typeName, Registry.typeName, first, second]
  | _ => rfl

omit indexed in
theorem declaration (wf : r.WellFormed) {d : InterfaceDescriptor} (member : d ∈ r.interfaces) :
    r'.declaration (σ.interfaceDescriptor d) = r.declaration d := by
  have spelled : ∀ ty ∈ d.types, r'.typeName (σ.ty ty) = r.typeName ty := fun ty hty =>
    renumbered.typeName wf.toIndexed (wf.types_held d member ty hty)
  have properties : ∀ p ∈ d.properties, r'.typeName (σ.ty p.ty) = r.typeName p.ty :=
    fun p hp => spelled p.ty (List.mem_append_left _ (List.mem_map.mpr ⟨p, hp, rfl⟩))
  have methods : ∀ m ∈ d.methods, ∀ ty ∈ m.returns :: m.parameters.map (·.ty),
      r'.typeName (σ.ty ty) = r.typeName ty :=
    fun m hm ty hty => spelled ty (List.mem_append_right _ (List.mem_flatMap.mpr ⟨m, hm, hty⟩))
  simp only [Registry.declaration, Renumbering.interfaceDescriptor, List.map_map,
    InterfaceDecl.mk.injEq, true_and]
  constructor
  · refine List.map_congr_left fun p hp => ?_
    simp only [Function.comp_apply, Renumbering.property, properties p hp]
  · refine List.map_congr_left fun m hm => ?_
    simp only [Function.comp_apply, Renumbering.method, List.map_map, MethodDecl.mk.injEq,
      true_and]
    refine ⟨methods m hm _ (by simp), List.map_congr_left fun p hp => ?_⟩
    have same := methods m hm p.ty (List.mem_cons_of_mem _ (List.mem_map.mpr ⟨p, hp, rfl⟩))
    simp only [Function.comp_apply, Renumbering.parameter, same]

omit indexed in
/-- Registries that differ in their places only agree. -/
theorem agrees (wf : r.WellFormed) : r.Agrees r' := by
  refine ⟨fun name => ?_, fun name => ?_, fun name => ?_⟩
  · rw [renumbered.lookup, Option.map_map]
    congr 1
    funext key
    cases key <;> rfl
  · rw [renumbered.enums, Option.map_map]
    rfl
  · rw [renumbered.interfaces, Option.map_map]
    cases found : r.interfaceByName? name with
    | none => rfl
    | some d =>
      obtain ⟨id, _, stored⟩ := interfaceByName?_eq_some_iff.mp found
      have same := renumbered.declaration wf (List.mem_of_getElem? stored)
      simp only [Option.map_some, Function.comp_apply, same]

end Renumbered

end Registry

end ObjectBoundary
