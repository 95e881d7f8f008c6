import ObjectBoundary.Proofs.Model.WellFormed

/-!
# Valid models

The rules that a model must keep are stated on its text, declaration by declaration, without the
passes in which it is loaded. The models that keep them are the ones that are loaded.
-/

namespace ObjectBoundary

/-! ### The rules -/

/-- A type expression of known names in which every key of a dictionary is a string, an integer or
an enumeration. -/
structure TypeExpr.Valid (known enumeration : String → Prop) (e : TypeExpr) : Prop where
  names : ∀ name, .named name ∈ e.parts → (Ty.primitive? name).isSome = true ∨ known name
  keys : ∀ key elem, .dict key elem ∈ e.parts → ∃ name, key = .named name ∧
    (name ∈ ["string_t", "int32_t", "int64_t"] ∨ Ty.primitive? name = none ∧ enumeration name)

/-- The text of the type of a property or a parameter. -/
def ValidValueText (known enumeration : String → Prop) (text : String) : Prop :=
  ∃ e, TypeExpr.parse text = .ok e ∧ e.Valid known enumeration ∧ .named "void" ∉ e.parts

/-- The text of the type of a result. -/
def ValidReturnText (known enumeration : String → Prop) (text : String) : Prop :=
  ∃ e, TypeExpr.parse text = .ok e ∧ e.Valid known enumeration ∧
    (e = .named "void" ∨ .named "void" ∉ e.parts)

structure EnumDecl.Valid (decl : EnumDecl) : Prop where
  backing : decl.backing = "int32_t" ∨ decl.backing = "int64_t"
  values_nodup : (decl.values.map (·.name)).Nodup
  /-- Every value fits 64 bits. -/
  values_fit : decl.backing = "int32_t" → ∀ v ∈ decl.values,
    -2147483648 ≤ v.value.toInt ∧ v.value.toInt ≤ 2147483647

structure InterfaceDecl.Valid (known enumeration : String → Prop) (decl : InterfaceDecl) :
    Prop where
  methods_nodup : (decl.methods.map (·.name)).Nodup
  properties_nodup : (decl.properties.map (·.name)).Nodup
  apart : ∀ p ∈ decl.properties, p.name ∉ decl.methods.map (·.name)
  parameters_nodup : ∀ m ∈ decl.methods, (m.parameters.map (·.name)).Nodup
  properties : ∀ p ∈ decl.properties, ValidValueText known enumeration p.type
  results : ∀ m ∈ decl.methods, ValidReturnText known enumeration m.returnType
  parameters : ∀ m ∈ decl.methods, ∀ p ∈ m.parameters, ValidValueText known enumeration p.type

/-- A model that may be loaded into a registry. -/
structure Model.Valid (m : Model) (r : Registry) : Prop where
  names_nodup : m.names.Nodup
  enums_kind : ∀ decl ∈ m.enums, ∀ id, r.lookup? decl.name ≠ some (.interface id)
  interfaces_kind : ∀ decl ∈ m.interfaces, ∀ id, r.lookup? decl.name ≠ some (.enumeration id)
  enums : ∀ decl ∈ m.enums, decl.Valid
  interfaces : ∀ decl ∈ m.interfaces, decl.Valid
    (fun name => name ∈ m.names ∨ (r.lookup? name).isSome = true)
    (fun name => name ∈ m.enums.map (·.name) ∨ ∃ id, r.lookup? name = some (.enumeration id))
  /-- An enumeration that is registered is declared as it stands in the registry. -/
  enums_same : ∀ decl ∈ m.enums, ∀ id, r.lookup? decl.name = some (.enumeration id) →
    ∃ d, r.enum? id = some d ∧ decl.Denotes id d
  /-- An interface that is registered is declared as it stands in the registry. -/
  interfaces_same : ∀ decl ∈ m.interfaces, ∀ id, r.lookup? decl.name = some (.interface id) →
    ∃ d, r.interface? id = some d ∧ decl.Denotes (r.scope m) id d

/-! ### Types -/

section

variable {lookup : String → Option TypeKey} {known enumeration : String → Prop}
  (known_iff : ∀ name, known name ↔ (lookup name).isSome = true)
  (enumeration_iff : ∀ name, enumeration name ↔ ∃ id, lookup name = some (.enumeration id))

namespace TypeExpr

theorem denote?_eq_void_iff (lookup : String → Option TypeKey) (e : TypeExpr) :
    e.denote? lookup = some .void ↔ e = .named "void" := by
  cases e with
  | named name =>
    rw [denote?_named, Ty.primitive?_eq_some_iff]
    constructor
    · rintro (primitive | ⟨_, key, _, same⟩)
      · simpa using primitive
      · cases key <;> cases same
    · intro same
      cases same
      simp
  | array elem => simp [denote?_array]
  | set elem => simp [denote?_set]
  | dict key elem => simp [denote?_dict]

theorem void_mem_parts_iff {e : TypeExpr} {ty : Ty} (denotes : e.denote? lookup = some ty) :
    .void ∈ ty.parts ↔ .named "void" ∈ e.parts := by
  rw [mem_parts_iff denotes]
  simp only [denote?_eq_void_iff, exists_eq_right]

include enumeration_iff in
/-- The names that may stand for the key of a dictionary. -/
theorem isKey_denote?_iff {e : TypeExpr} {ty : Ty} (denotes : e.denote? lookup = some ty) :
    ty.isKey = true ↔ ∃ name, e = .named name ∧
      (name ∈ ["string_t", "int32_t", "int64_t"] ∨
        Ty.primitive? name = none ∧ enumeration name) := by
  cases e with
  | named name =>
    simp only [named.injEq, exists_eq_left', enumeration_iff]
    rcases (denote?_named name ty).mp denotes with primitive | ⟨other, key, found, rfl⟩
    · rw [primitive]
      rw [Ty.primitive?_eq_some_iff] at primitive
      simp only [List.mem_cons, Prod.mk.injEq, List.not_mem_nil, or_false] at primitive
      rcases primitive with ⟨rfl, rfl⟩ | ⟨rfl, rfl⟩ | ⟨rfl, rfl⟩ | ⟨rfl, rfl⟩ | ⟨rfl, rfl⟩ |
        ⟨rfl, rfl⟩ | ⟨rfl, rfl⟩ <;> simp [Ty.isKey]
    · have unlisted : name ∉ ["string_t", "int32_t", "int64_t"] := by
        intro listed
        simp only [List.mem_cons, List.not_mem_nil, or_false] at listed
        rcases listed with rfl | rfl | rfl <;> cases other
      cases key <;> simp [TypeKey.ty, Ty.isKey, unlisted, other, found]
  | array elem =>
    obtain ⟨_, _, rfl⟩ := (denote?_array elem ty).mp denotes
    simp [Ty.isKey]
  | set elem =>
    obtain ⟨_, _, rfl⟩ := (denote?_set elem ty).mp denotes
    simp [Ty.isKey]
  | dict key elem =>
    obtain ⟨_, _, _, _, rfl⟩ := (denote?_dict key elem ty).mp denotes
    simp [Ty.isKey]

include known_iff enumeration_iff in
theorem valid_iff (e : TypeExpr) :
    e.Valid known enumeration ↔ ∃ ty, e.denote? lookup = some ty ∧ ty.KeysAllowed := by
  have names_iff : (∃ ty, e.denote? lookup = some ty) ↔ _ := exists_denote?_iff e
  simp only [← known_iff] at names_iff
  constructor
  · rintro ⟨names, keys⟩
    obtain ⟨ty, denotes⟩ := names_iff.mpr names
    refine ⟨ty, denotes, fun k inner member => ?_⟩
    obtain ⟨e', he', h⟩ := (mem_parts_iff denotes _).mp member
    obtain ⟨key, elem, rfl, hkey, _⟩ := (denote?_eq_dict_iff e' k inner).mp h
    exact (isKey_denote?_iff enumeration_iff hkey).mpr (keys key elem he')
  · rintro ⟨ty, denotes, allowed⟩
    refine ⟨names_iff.mp ⟨ty, denotes⟩, fun key elem member => ?_⟩
    obtain ⟨part, hpart⟩ := exists_denote?_of_mem_parts denotes member
    obtain ⟨k, inner, hkey, _, rfl⟩ := (denote?_dict key elem part).mp hpart
    have inside : .dict k inner ∈ ty.parts := (mem_parts_iff denotes _).mpr ⟨_, member, hpart⟩
    exact (isKey_denote?_iff enumeration_iff hkey).mp (allowed k inner inside)

end TypeExpr

include known_iff enumeration_iff

theorem validValueText_iff (text : String) :
    ValidValueText known enumeration text ↔ ∃ ty, Spells lookup text ty ∧ ty.OfValues := by
  constructor
  · rintro ⟨e, parsed, valid, void_free⟩
    obtain ⟨ty, denotes, keys⟩ := (e.valid_iff known_iff enumeration_iff).mp valid
    rw [← TypeExpr.void_mem_parts_iff denotes] at void_free
    exact ⟨ty, ⟨e, parsed, denotes⟩, void_free, keys⟩
  · rintro ⟨ty, ⟨e, parsed, denotes⟩, void_free, keys⟩
    rw [TypeExpr.void_mem_parts_iff denotes] at void_free
    exact ⟨e, parsed, (e.valid_iff known_iff enumeration_iff).mpr ⟨ty, denotes, keys⟩, void_free⟩

theorem validReturnText_iff (text : String) :
    ValidReturnText known enumeration text ↔
      ∃ ty, Spells lookup text ty ∧ ty.KeysAllowed ∧ (ty = .void ∨ .void ∉ ty.parts) := by
  constructor
  · rintro ⟨e, parsed, valid, whole⟩
    obtain ⟨ty, denotes, keys⟩ := (e.valid_iff known_iff enumeration_iff).mp valid
    refine ⟨ty, ⟨e, parsed, denotes⟩, keys, ?_⟩
    rw [TypeExpr.void_mem_parts_iff denotes]
    refine whole.imp_left fun same => ?_
    rw [← TypeExpr.denote?_eq_void_iff lookup, denotes] at same
    exact Option.some.inj same
  · rintro ⟨ty, ⟨e, parsed, denotes⟩, keys, whole⟩
    refine ⟨e, parsed, (e.valid_iff known_iff enumeration_iff).mpr ⟨ty, denotes, keys⟩, ?_⟩
    rw [TypeExpr.void_mem_parts_iff denotes] at whole
    refine whole.imp_left fun same => ?_
    rw [← TypeExpr.denote?_eq_void_iff lookup, denotes, same]

/-! ### Declarations -/

/-- Declarations whose texts spell types of values are those with descriptors of such types. -/
theorem exists_described_iff {δ ε : Type} {textOf : δ → String} {tyOf : ε → Ty}
    {Denotes : δ → ε → Prop} (spelled : ∀ d e, Denotes d e → Spells lookup (textOf d) (tyOf e))
    (described : ∀ d ty, Spells lookup (textOf d) ty → ∃ e, Denotes d e ∧ tyOf e = ty)
    (decls : List δ) :
    (∀ d ∈ decls, ValidValueText known enumeration (textOf d)) ↔
      ∃ es, List.Forall₂ Denotes decls es ∧ ∀ e ∈ es, (tyOf e).OfValues := by
  simp only [validValueText_iff known_iff enumeration_iff, ← forall₂_and_right]
  constructor
  · intro each
    refine exists_forall₂ fun d hd => ?_
    obtain ⟨ty, spells, ofValues⟩ := each d hd
    obtain ⟨e, denotes, rfl⟩ := described d ty spells
    exact ⟨e, denotes, ofValues⟩
  · rintro ⟨es, related⟩ d hd
    obtain ⟨e, _, denotes, ofValues⟩ := mem_left_of_forall₂ related hd
    exact ⟨tyOf e, spelled d e denotes, ofValues⟩

theorem exists_parameters_iff (decls : List ParameterDecl) :
    (∀ p ∈ decls, ValidValueText known enumeration p.type) ↔
      ∃ ps, List.Forall₂ (ParameterDecl.Denotes lookup) decls ps ∧ ∀ p ∈ ps, p.ty.OfValues :=
  exists_described_iff known_iff enumeration_iff (fun _ _ denotes => denotes.type)
    (fun p ty spells => ⟨⟨p.name, ty⟩, ⟨rfl, spells⟩, rfl⟩) decls

theorem exists_properties_iff (decls : List PropertyDecl) :
    (∀ p ∈ decls, ValidValueText known enumeration p.type) ↔
      ∃ ps, List.Forall₂ (PropertyDecl.Denotes lookup) decls ps ∧ ∀ p ∈ ps, p.ty.OfValues :=
  exists_described_iff known_iff enumeration_iff (fun _ _ denotes => denotes.type)
    (fun p ty spells => ⟨⟨p.name, ty, !p.writable⟩, ⟨rfl, spells, rfl⟩, rfl⟩) decls

theorem exists_method_iff (decl : MethodDecl) :
    (decl.parameters.map (·.name)).Nodup ∧ ValidReturnText known enumeration decl.returnType ∧
        (∀ p ∈ decl.parameters, ValidValueText known enumeration p.type) ↔
      ∃ m, decl.Denotes lookup m ∧ m.Allowed := by
  rw [validReturnText_iff known_iff enumeration_iff,
    exists_parameters_iff known_iff enumeration_iff]
  constructor
  · rintro ⟨distinct, ⟨returns, spells, keys, whole⟩, ps, related, values⟩
    refine ⟨⟨decl.name, ps, returns⟩, ⟨rfl, spells, related⟩, whole, keys, values, ?_⟩
    rwa [map_eq_of_forall₂ related fun _ _ h => h.name_eq]
  · rintro ⟨m, denotes, allowed⟩
    refine ⟨?_, ⟨m.returns, denotes.returns, allowed.returns_keys, allowed.returns_void⟩,
      m.parameters, denotes.parameters, allowed.parameters⟩
    rw [← map_eq_of_forall₂ denotes.parameters fun _ _ h => h.name_eq]
    exact allowed.parameters_nodup

theorem exists_methods_iff (decls : List MethodDecl) :
    (∀ m ∈ decls, (m.parameters.map (·.name)).Nodup ∧
        ValidReturnText known enumeration m.returnType ∧
        ∀ p ∈ m.parameters, ValidValueText known enumeration p.type) ↔
      ∃ ms, List.Forall₂ (MethodDecl.Denotes lookup) decls ms ∧ ∀ m ∈ ms, m.Allowed := by
  simp only [exists_method_iff known_iff enumeration_iff, ← forall₂_and_right]
  constructor
  · exact exists_forall₂
  · rintro ⟨ms, related⟩ m hm
    obtain ⟨n, _, h⟩ := mem_left_of_forall₂ related hm
    exact ⟨n, h⟩

/-- An interface is valid when it has a descriptor that keeps the rules. -/
theorem InterfaceDecl.valid_iff (decl : InterfaceDecl) (id : InterfaceId) :
    decl.Valid known enumeration ↔ ∃ d, decl.Denotes lookup id d ∧ d.Allowed := by
  have properties_iff := exists_properties_iff known_iff enumeration_iff decl.properties
  have methods_iff := exists_methods_iff known_iff enumeration_iff decl.methods
  constructor
  · intro valid
    obtain ⟨properties, denoted, values⟩ := properties_iff.mp valid.properties
    obtain ⟨methods, denoted', allowed⟩ := methods_iff.mp fun m hm =>
      ⟨valid.parameters_nodup m hm, valid.results m hm, valid.parameters m hm⟩
    exact ⟨⟨id, decl.name, properties, methods⟩, ⟨rfl, rfl, denoted, denoted'⟩, values, allowed,
      (members_nodup_iff denoted denoted').mpr
        ⟨valid.properties_nodup, valid.methods_nodup, valid.apart⟩⟩
  · rintro ⟨d, denotes, allowed⟩
    obtain ⟨properties_nodup, methods_nodup, apart⟩ :=
      (members_nodup_iff denotes.properties denotes.methods).mp allowed.members_nodup
    have properties := properties_iff.mpr ⟨d.properties, denotes.properties, allowed.properties⟩
    have methods := methods_iff.mpr ⟨d.methods, denotes.methods, allowed.methods⟩
    exact
      { methods_nodup
        properties_nodup
        apart
        parameters_nodup := fun m hm => (methods m hm).1
        properties
        results := fun m hm => (methods m hm).2.1
        parameters := fun m hm => (methods m hm).2.2 }

end

theorem Backing.ofName?_eq_some_iff (name : String) (backing : Backing) :
    ofName? name = some backing ↔ name = backing.name := by
  unfold ofName? Backing.name
  cases backing <;> split <;> simp_all

/-- An enumeration is valid when it has a descriptor that keeps the rules. -/
theorem EnumDecl.valid_iff (decl : EnumDecl) (id : EnumId) :
    decl.Valid ↔ ∃ d, decl.Denotes id d ∧ d.Allowed := by
  constructor
  · rintro ⟨backing, distinct, fit⟩
    obtain ⟨width, hwidth⟩ : ∃ width, Backing.ofName? decl.backing = some width := by
      rcases backing with h | h <;> rw [h] <;> exact ⟨_, rfl⟩
    refine ⟨⟨id, decl.name, width, decl.values.map fun v => (v.name, v.value)⟩,
      ⟨rfl, rfl, hwidth, rfl⟩, ?_, ?_⟩
    · simpa [Function.comp_def] using distinct
    · intro v hv
      obtain ⟨member, hmember, rfl⟩ := List.mem_map.mp hv
      cases width with
      | i32 =>
        have narrow := (Backing.ofName?_eq_some_iff _ _).mp hwidth
        simpa [Backing.contains] using fit narrow member hmember
      | i64 => rfl
  · rintro ⟨d, denotes, allowed⟩
    have backing_eq := (Backing.ofName?_eq_some_iff _ _).mp denotes.backing_eq
    refine ⟨?_, ?_, ?_⟩
    · rw [backing_eq]
      cases d.backing <;> simp [Backing.name]
    · simpa [denotes.values_eq, Function.comp_def] using allowed.values_nodup
    · intro narrow v hv
      have fits := allowed.values_fit (v.name, v.value)
        (denotes.values_eq ▸ List.mem_map.mpr ⟨v, hv, rfl⟩)
      have width : d.backing = .i32 := Option.some.inj
        (denotes.backing_eq.symm.trans ((Backing.ofName?_eq_some_iff _ .i32).mpr narrow))
      simpa [width, Backing.contains] using fits

/-! ### Models -/

namespace Registry

variable {r : Registry} {m : Model} {name : String} {key : TypeKey}

/-- The names of the scope are those that are declared or registered. -/
theorem isSome_scope_iff (r : Registry) (m : Model) (name : String) :
    (r.scope m name).isSome = true ↔ name ∈ m.names ∨ (r.lookup? name).isSome = true := by
  cases registered : r.lookup? name with
  | some key => simp [scope, registered]
  | none =>
    have listed : (r.additions m).lookup name = none ↔ name ∉ m.names := by
      rw [lookup_eq_none_iff_not_mem, map_fst_additions]
      simp [unregistered, registered]
    simp [scope, registered, Option.isSome_iff_ne_none, listed]

theorem scope_eq_some (h : r.scope m name = some key) :
    r.lookup? name = some key ∨ r.lookup? name = none ∧ (name, key) ∈ r.additions m := by
  cases registered : r.lookup? name with
  | some found =>
    rw [scope, registered, Option.some_or] at h
    exact .inl h
  | none =>
    rw [scope, registered, Option.none_or] at h
    exact .inr ⟨rfl, mem_of_lookup h⟩

theorem scope_eq_enumeration {id : EnumId} (h : r.scope m name = some (.enumeration id)) :
    r.lookup? name = some (.enumeration id) ∨
      name ∈ m.enums.map (·.name) ∧ r.enums.length ≤ id.index := by
  refine (scope_eq_some h).imp_right fun ⟨_, added⟩ => ?_
  rcases List.mem_append.mp added with added | added
  · obtain ⟨declared, _, i, same⟩ := mem_numbered added
    cases same
    exact ⟨declared, by simp⟩
  · obtain ⟨_, _, _, same⟩ := mem_numbered added
    cases same

theorem scope_eq_interface {id : InterfaceId} (h : r.scope m name = some (.interface id)) :
    r.lookup? name = some (.interface id) ∨
      name ∈ m.interfaces.map (·.name) ∧ r.interfaces.length ≤ id.index := by
  refine (scope_eq_some h).imp_right fun ⟨_, added⟩ => ?_
  rcases List.mem_append.mp added with added | added
  · obtain ⟨_, _, _, same⟩ := mem_numbered added
    cases same
  · obtain ⟨declared, _, i, same⟩ := mem_numbered added
    cases same
    exact ⟨declared, by simp⟩

section

variable (distinct : m.names.Nodup)

include distinct

theorem exists_scope_of_mem_enums
    (kind : ∀ decl ∈ m.enums, ∀ id, r.lookup? decl.name ≠ some (.interface id))
    {decl : EnumDecl} (member : decl ∈ m.enums) :
    ∃ id, r.scope m decl.name = some (.enumeration id) := by
  have declared : decl.name ∈ m.enums.map (·.name) := List.mem_map.mpr ⟨decl, member, rfl⟩
  obtain ⟨key, hkey⟩ := Option.isSome_iff_exists.mp
    ((isSome_scope_iff r m decl.name).mpr (.inl (List.mem_append_left _ declared)))
  cases key with
  | enumeration id => exact ⟨id, hkey⟩
  | interface id =>
    rcases scope_eq_interface hkey with registered | ⟨again, _⟩
    · exact absurd registered (kind decl member id)
    · exact absurd rfl ((List.nodup_append.mp distinct).2.2 _ declared _ again)

theorem exists_scope_of_mem_interfaces
    (kind : ∀ decl ∈ m.interfaces, ∀ id, r.lookup? decl.name ≠ some (.enumeration id))
    {decl : InterfaceDecl} (member : decl ∈ m.interfaces) :
    ∃ id, r.scope m decl.name = some (.interface id) := by
  have declared : decl.name ∈ m.interfaces.map (·.name) := List.mem_map.mpr ⟨decl, member, rfl⟩
  obtain ⟨key, hkey⟩ := Option.isSome_iff_exists.mp
    ((isSome_scope_iff r m decl.name).mpr (.inl (List.mem_append_right _ declared)))
  cases key with
  | interface id => exact ⟨id, hkey⟩
  | enumeration id =>
    rcases scope_eq_enumeration hkey with registered | ⟨again, _⟩
    · exact absurd registered (kind decl member id)
    · exact absurd rfl ((List.nodup_append.mp distinct).2.2 _ again _ declared)

/-- The enumerations of the scope are those that are declared or registered. -/
theorem exists_scope_enumeration_iff
    (kind : ∀ decl ∈ m.enums, ∀ id, r.lookup? decl.name ≠ some (.interface id)) (name : String) :
    (name ∈ m.enums.map (·.name) ∨ ∃ id, r.lookup? name = some (.enumeration id)) ↔
      ∃ id, r.scope m name = some (.enumeration id) := by
  constructor
  · rintro (declared | ⟨id, registered⟩)
    · obtain ⟨decl, member, rfl⟩ := List.mem_map.mp declared
      exact exists_scope_of_mem_enums distinct kind member
    · exact ⟨id, by rw [scope, registered, Option.some_or]⟩
  · rintro ⟨id, found⟩
    rcases scope_eq_enumeration found with registered | ⟨declared, _⟩
    · exact .inr ⟨id, registered⟩
    · exact .inl declared

end

/-- A model whose declarations have descriptors keeps the rules. -/
theorem Admits.valid {enums : List EnumDescriptor} {interfaces : List InterfaceDescriptor}
    (admits : r.Admits m enums interfaces) (indexed : r.Indexed) : m.Valid r := by
  have registered_scope : ∀ name key, r.lookup? name = some key → r.scope m name = some key :=
    fun name key h => by rw [scope, h, Option.some_or]
  have enums_kind : ∀ decl ∈ m.enums, ∀ id, r.lookup? decl.name ≠ some (.interface id) := by
    intro decl hdecl id registered
    obtain ⟨d, _, placed, _⟩ := mem_left_of_forall₂ admits.enums_described hdecl
    cases placed.symm.trans (registered_scope _ _ registered)
  refine ⟨admits.names_nodup, enums_kind, ?_, ?_, ?_, ?_, ?_⟩
  · intro decl hdecl id registered
    obtain ⟨d, _, placed, _⟩ := mem_left_of_forall₂ admits.interfaces_described hdecl
    cases placed.symm.trans (registered_scope _ _ registered)
  · intro decl hdecl
    obtain ⟨d, _, _, described⟩ := mem_left_of_forall₂ admits.enums_described hdecl
    exact (decl.valid_iff d.id).mpr ⟨d, described⟩
  · intro decl hdecl
    obtain ⟨d, _, _, described⟩ := mem_left_of_forall₂ admits.interfaces_described hdecl
    exact (decl.valid_iff (fun name => (isSome_scope_iff r m name).symm)
      (exists_scope_enumeration_iff admits.names_nodup enums_kind) d.id).mpr ⟨d, described⟩
  · intro decl hdecl id registered
    obtain ⟨d, hd, placed, denotes, _⟩ := mem_left_of_forall₂ admits.enums_described hdecl
    cases placed.symm.trans (registered_scope _ _ registered)
    obtain ⟨old, hold, _⟩ := (indexed.lookup_enum _ _).mp registered
    exact ⟨old, hold, admits.enums_kept d hd old hold ▸ denotes⟩
  · intro decl hdecl id registered
    obtain ⟨d, hd, placed, denotes, _⟩ := mem_left_of_forall₂ admits.interfaces_described hdecl
    cases placed.symm.trans (registered_scope _ _ registered)
    obtain ⟨old, hold, _⟩ := (indexed.lookup_interface _ _).mp registered
    exact ⟨old, hold, admits.interfaces_kept d hd old hold ▸ denotes⟩

/-- The declarations of a model that keeps the rules have descriptors. -/
theorem exists_admits (valid : m.Valid r) : ∃ enums interfaces, r.Admits m enums interfaces := by
  have enums_placed : ∀ decl ∈ m.enums, ∃ d, r.scope m decl.name = some (.enumeration d.id) ∧
      decl.Denotes d.id d ∧ d.Allowed := by
    intro decl hdecl
    obtain ⟨id, placed⟩ := exists_scope_of_mem_enums valid.names_nodup valid.enums_kind hdecl
    obtain ⟨d, denotes, allowed⟩ := (decl.valid_iff id).mp (valid.enums decl hdecl)
    cases denotes.id_eq
    exact ⟨d, placed, denotes, allowed⟩
  have interfaces_placed : ∀ decl ∈ m.interfaces, ∃ d,
      r.scope m decl.name = some (.interface d.id) ∧ decl.Denotes (r.scope m) d.id d ∧
        d.Allowed := by
    intro decl hdecl
    obtain ⟨id, placed⟩ :=
      exists_scope_of_mem_interfaces valid.names_nodup valid.interfaces_kind hdecl
    obtain ⟨d, denotes, allowed⟩ := (decl.valid_iff (fun name => (isSome_scope_iff r m name).symm)
      (exists_scope_enumeration_iff valid.names_nodup valid.enums_kind) id).mp
        (valid.interfaces decl hdecl)
    cases denotes.id_eq
    exact ⟨d, placed, denotes, allowed⟩
  obtain ⟨enums, henums⟩ := exists_forall₂ enums_placed
  obtain ⟨interfaces, hinterfaces⟩ := exists_forall₂ interfaces_placed
  refine ⟨enums, interfaces, valid.names_nodup, henums, hinterfaces, ?_, ?_⟩
  · intro d hd old hold
    obtain ⟨decl, hdecl, placed, denotes, _⟩ := mem_right_of_forall₂ henums hd
    rcases scope_eq_enumeration placed with registered | ⟨_, new⟩
    · obtain ⟨same, found, denotes'⟩ := valid.enums_same decl hdecl d.id registered
      cases hold.symm.trans found
      exact denotes'.unique denotes
    · have := (List.getElem?_eq_some_iff.mp hold).1
      omega
  · intro d hd old hold
    obtain ⟨decl, hdecl, placed, denotes, _⟩ := mem_right_of_forall₂ hinterfaces hd
    rcases scope_eq_interface placed with registered | ⟨_, new⟩
    · obtain ⟨same, found, denotes'⟩ := valid.interfaces_same decl hdecl d.id registered
      cases hold.symm.trans found
      exact denotes'.unique denotes
    · have := (List.getElem?_eq_some_iff.mp hold).1
      omega

/-- After any attempts to load models, the models that can be loaded are the valid ones. -/
theorem load_succeeds_iff_valid (ms : List Model) (m : Model) :
    (∃ l r', (loadAll {} ms).load m = .ok (l, r')) ↔ m.Valid (loadAll {} ms) := by
  constructor
  · rintro ⟨l, r', h⟩
    obtain ⟨enums, interfaces, admits, _⟩ := load_eq_ok_iff.mp h
    exact admits.valid (wellFormed_empty.loadAll ms).toIndexed
  · intro valid
    obtain ⟨enums, interfaces, admits⟩ := exists_admits valid
    exact ⟨_, _, load_eq_ok_iff.mpr ⟨enums, interfaces, admits, rfl, rfl⟩⟩

end Registry

end ObjectBoundary
