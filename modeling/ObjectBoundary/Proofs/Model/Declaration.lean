import ObjectBoundary.Proofs.Model.Types

/-!
# Declarations and their descriptors

A descriptor denotes a declaration when it says the same with every type resolved. A declaration is
described by the one descriptor that denotes it, unless that descriptor breaks a rule: about
distinct names, about values and their width, about `void` and about the keys of dictionaries.
-/

namespace ObjectBoundary

/-! ### What descriptors may say -/

/-- A type of values: it contains no `void`, and its dictionaries have keys. -/
structure Ty.OfValues (ty : Ty) : Prop where
  void_free : .void ∉ ty.parts
  keys : ty.KeysAllowed

structure Method.Allowed (m : Method) : Prop where
  returns_void : m.returns = .void ∨ .void ∉ m.returns.parts
  returns_keys : m.returns.KeysAllowed
  parameters : ∀ p ∈ m.parameters, p.ty.OfValues
  parameters_nodup : (m.parameters.map (·.name)).Nodup

structure InterfaceDescriptor.Allowed (d : InterfaceDescriptor) : Prop where
  properties : ∀ p ∈ d.properties, p.ty.OfValues
  methods : ∀ m ∈ d.methods, m.Allowed
  /-- Properties and methods together have distinct names. -/
  members_nodup : (d.properties.map (·.name) ++ d.methods.map (·.name)).Nodup

structure EnumDescriptor.Allowed (d : EnumDescriptor) : Prop where
  values_nodup : (d.values.map (·.1)).Nodup
  values_fit : ∀ v ∈ d.values, d.backing.contains v.2.toInt = true

/-! ### What declarations denote -/

structure EnumDecl.Denotes (decl : EnumDecl) (id : EnumId) (d : EnumDescriptor) : Prop where
  id_eq : d.id = id
  name_eq : d.name = decl.name
  backing_eq : Backing.ofName? decl.backing = some d.backing
  values_eq : d.values = decl.values.map fun v => (v.name, v.value)

section

variable (lookup : String → Option TypeKey)

structure PropertyDecl.Denotes (decl : PropertyDecl) (p : Property) : Prop where
  name_eq : p.name = decl.name
  type : Spells lookup decl.type p.ty
  readOnly_eq : p.readOnly = !decl.writable

structure ParameterDecl.Denotes (decl : ParameterDecl) (p : Parameter) : Prop where
  name_eq : p.name = decl.name
  type : Spells lookup decl.type p.ty

structure MethodDecl.Denotes (decl : MethodDecl) (m : Method) : Prop where
  name_eq : m.name = decl.name
  returns : Spells lookup decl.returnType m.returns
  parameters : List.Forall₂ (ParameterDecl.Denotes lookup) decl.parameters m.parameters

structure InterfaceDecl.Denotes (decl : InterfaceDecl) (id : InterfaceId)
    (d : InterfaceDescriptor) : Prop where
  id_eq : d.id = id
  name_eq : d.name = decl.name
  properties : List.Forall₂ (PropertyDecl.Denotes lookup) decl.properties d.properties
  methods : List.Forall₂ (MethodDecl.Denotes lookup) decl.methods d.methods

end

/-! ### Enumerations -/

namespace EnumDecl

theorem members_eq_ok_iff (decl : EnumDecl) (backing : Backing) (declared : List EnumMember)
    (values : List (String × Int64)) :
    decl.members backing [] declared = .ok values ↔
      (declared.map (·.name)).Nodup ∧
        List.Forall₂ (fun m v => v = (m.name, m.value) ∧ backing.contains v.2.toInt = true)
          declared values := by
  have cons : ∀ seen m rest values, decl.members backing seen (m :: rest) = .ok values ↔
      m.name ∉ seen ∧ ∃ v more, (v = (m.name, m.value) ∧ backing.contains v.2.toInt = true) ∧
        decl.members backing (m.name :: seen) rest = .ok more ∧ values = v :: more := by
    intro seen m rest values
    rw [members]
    by_cases again : m.name ∈ seen
    · simp [again]
    · cases fits : backing.contains m.value.toInt with
      | false => simp [again, fits]
      | true =>
        simp only [List.contains_eq_mem, again, decide_false, Bool.false_eq_true, if_false,
          Bool.not_true, bind_eq_ok_iff, not_false_eq_true, true_and]
        constructor
        · rintro ⟨more, hmore, h⟩
          cases h
          exact ⟨_, more, ⟨rfl, fits⟩, hmore, rfl⟩
        · rintro ⟨_, more, ⟨rfl, _⟩, hmore, rfl⟩
          exact ⟨more, hmore, rfl⟩
  simpa using ok_iff_of_seen (decl.members backing) (fun _ => rfl) cons [] declared values

theorem describe_eq_ok_iff (decl : EnumDecl) (id : EnumId) (d : EnumDescriptor) :
    decl.describe id = .ok d ↔ decl.Denotes id d ∧ d.Allowed := by
  unfold describe
  cases hbacking : Backing.ofName? decl.backing with
  | none =>
    constructor
    · intro h
      cases h
    · rintro ⟨denotes, _⟩
      cases hbacking.symm.trans denotes.backing_eq
  | some backing =>
    simp only [bind_eq_ok_iff, members_eq_ok_iff, forall₂_and_right]
    constructor
    · rintro ⟨values, ⟨distinct, related, fit⟩, h⟩
      cases h
      have values_eq : values = decl.values.map fun v => (v.name, v.value) := by
        simpa using map_eq_of_forall₂ (g := fun v => v) related fun _ _ h => h
      refine ⟨⟨rfl, rfl, hbacking, values_eq⟩, ?_, fit⟩
      simpa [values_eq, Function.comp_def] using distinct
    · rintro ⟨⟨rfl, name_eq, backing_eq, values_eq⟩, distinct, fit⟩
      cases hbacking.symm.trans backing_eq
      refine ⟨d.values, ⟨?_, ?_, fit⟩, ?_⟩
      · simpa [values_eq, Function.comp_def] using distinct
      · rw [values_eq, List.forall₂_map_right_iff, List.forall₂_same]
        exact fun _ _ => rfl
      · rw [← name_eq]
        rfl

end EnumDecl

/-! ### Interfaces -/

namespace InterfaceDecl

variable {lookup : String → Option TypeKey}

/-- A type is resolved, and refused when it is not one of values. -/
theorem resolveValue_eq_ok_iff {β : Type} (context : TypeContext) (text : String)
    {refuse next : Ty → Except ModelError β} {b : β} (refused : ∀ ty, refuse ty ≠ .ok b) :
    (resolveText lookup context text >>= fun ty =>
        if ty.containsVoid = true then refuse ty else next ty) = .ok b ↔
      ∃ ty, Spells lookup text ty ∧ ty.OfValues ∧ next ty = .ok b := by
  simp only [bind_eq_ok_iff, resolveText_eq_ok_iff]
  constructor
  · rintro ⟨ty, ⟨spells, keys⟩, h⟩
    split at h
    · exact absurd h (refused ty)
    · next void_free =>
      rw [Ty.containsVoid_iff] at void_free
      exact ⟨ty, spells, ⟨void_free, keys⟩, h⟩
  · rintro ⟨ty, spells, ⟨void_free, keys⟩, h⟩
    rw [← Ty.containsVoid_iff] at void_free
    exact ⟨ty, ⟨spells, keys⟩, by rwa [if_neg void_free]⟩

theorem parameters_eq_ok_iff (decl : InterfaceDecl) (method : String) (ps : List ParameterDecl)
    (qs : List Parameter) :
    decl.parameters lookup method [] ps = .ok qs ↔
      (ps.map (·.name)).Nodup ∧
        List.Forall₂ (fun p q => p.Denotes lookup q ∧ q.ty.OfValues) ps qs := by
  have cons : ∀ seen p rest qs, decl.parameters lookup method seen (p :: rest) = .ok qs ↔
      p.name ∉ seen ∧ ∃ q more, (p.Denotes lookup q ∧ q.ty.OfValues) ∧
        decl.parameters lookup method (p.name :: seen) rest = .ok more ∧ qs = q :: more := by
    intro seen p rest qs
    rw [parameters]
    by_cases again : p.name ∈ seen
    · simp [again]
    · simp only [List.contains_eq_mem, again, decide_false, Bool.false_eq_true, if_false,
        not_false_eq_true, true_and]
      rw [resolveValue_eq_ok_iff _ _ fun _ h => by cases h]
      constructor
      · rintro ⟨ty, spells, ofValues, h⟩
        obtain ⟨more, hmore, h⟩ := bind_eq_ok_iff.mp h
        cases h
        exact ⟨⟨p.name, ty⟩, more, ⟨⟨rfl, spells⟩, ofValues⟩, hmore, rfl⟩
      · rintro ⟨q, more, ⟨⟨name_eq, spells⟩, ofValues⟩, hmore, rfl⟩
        refine ⟨q.ty, spells, ofValues, ?_⟩
        rw [hmore, ← name_eq]
        rfl
  simpa using ok_iff_of_seen (decl.parameters lookup method) (fun _ => rfl) cons [] ps qs

theorem describeMethods_eq_ok_iff (decl : InterfaceDecl) (ms : List MethodDecl)
    (ns : List Method) :
    decl.describeMethods lookup [] ms = .ok ns ↔
      (ms.map (·.name)).Nodup ∧
        List.Forall₂ (fun m n => m.Denotes lookup n ∧ n.Allowed) ms ns := by
  have cons : ∀ seen m rest ns, decl.describeMethods lookup seen (m :: rest) = .ok ns ↔
      m.name ∉ seen ∧ ∃ n more, (m.Denotes lookup n ∧ n.Allowed) ∧
        decl.describeMethods lookup (m.name :: seen) rest = .ok more ∧ ns = n :: more := by
    intro seen m rest ns
    rw [describeMethods]
    by_cases again : m.name ∈ seen
    · simp [again]
    · simp only [List.contains_eq_mem, again, decide_false, Bool.false_eq_true, if_false,
        bind_eq_ok_iff, resolveText_eq_ok_iff, not_false_eq_true, true_and]
      constructor
      · rintro ⟨returns, ⟨spells, keys⟩, h⟩
        split at h
        · cases h
        · next void_free =>
          have returns_void : returns = .void ∨ .void ∉ returns.parts := by
            rw [← Ty.containsVoid_iff]
            by_cases whole : returns = .void
            · exact .inl whole
            · simpa [whole] using void_free
          obtain ⟨qs, hqs, h⟩ := bind_eq_ok_iff.mp h
          obtain ⟨more, hmore, h⟩ := bind_eq_ok_iff.mp h
          cases h
          obtain ⟨distinct, related⟩ := (parameters_eq_ok_iff decl m.name m.parameters qs).mp hqs
          obtain ⟨related, values⟩ := forall₂_and_right.mp related
          refine ⟨⟨m.name, qs, returns⟩, more, ⟨⟨rfl, spells, related⟩, returns_void, keys, values,
            ?_⟩, hmore, rfl⟩
          rwa [map_eq_of_forall₂ related fun _ _ h => h.name_eq]
      · rintro ⟨n, more, ⟨denotes, allowed⟩, hmore, rfl⟩
        refine ⟨n.returns, ⟨denotes.returns, allowed.returns_keys⟩, ?_⟩
        have void_free : ¬ (decide (n.returns ≠ .void) && n.returns.containsVoid) = true := by
          rcases allowed.returns_void with whole | none
          · simp [whole]
          · simp [Ty.containsVoid_iff, none]
        have hqs : decl.parameters lookup m.name [] m.parameters = .ok n.parameters := by
          refine (parameters_eq_ok_iff decl m.name m.parameters n.parameters).mpr ⟨?_,
            forall₂_and_right.mpr ⟨denotes.parameters, allowed.parameters⟩⟩
          rw [← map_eq_of_forall₂ denotes.parameters fun _ _ h => h.name_eq]
          exact allowed.parameters_nodup
        rw [if_neg void_free, hqs, hmore, ← denotes.name_eq]
        rfl
  simpa using ok_iff_of_seen (decl.describeMethods lookup) (fun _ => rfl) cons [] ms ns

theorem describeProperties_eq_ok_iff (decl : InterfaceDecl) (ps : List PropertyDecl)
    (qs : List Property) :
    decl.describeProperties lookup [] ps = .ok qs ↔
      (ps.map (·.name)).Nodup ∧ (∀ p ∈ ps, p.name ∉ decl.methods.map (·.name)) ∧
        List.Forall₂ (fun p q => p.Denotes lookup q ∧ q.ty.OfValues) ps qs := by
  have cons : ∀ seen p rest qs, decl.describeProperties lookup seen (p :: rest) = .ok qs ↔
      p.name ∉ seen ∧ ∃ q more, (p.name ∉ decl.methods.map (·.name) ∧
        p.Denotes lookup q ∧ q.ty.OfValues) ∧
        decl.describeProperties lookup (p.name :: seen) rest = .ok more ∧ qs = q :: more := by
    intro seen p rest qs
    rw [describeProperties]
    have conflict : decl.methods.any (·.name == p.name) = true ↔
        p.name ∈ decl.methods.map (·.name) := by
      simp
    by_cases again : p.name ∈ seen
    · simp [again]
    by_cases taken : p.name ∈ decl.methods.map (·.name)
    · rw [if_pos (conflict.mpr taken)]
      simp [again, taken]
    · rw [if_neg (mt conflict.mp taken)]
      simp only [List.contains_eq_mem, again, decide_false, Bool.false_eq_true, if_false, taken,
        not_false_eq_true, true_and]
      rw [resolveValue_eq_ok_iff _ _ fun _ h => by cases h]
      constructor
      · rintro ⟨ty, spells, ofValues, h⟩
        obtain ⟨more, hmore, h⟩ := bind_eq_ok_iff.mp h
        cases h
        exact ⟨⟨p.name, ty, !p.writable⟩, more, ⟨⟨rfl, spells, rfl⟩, ofValues⟩, hmore, rfl⟩
      · rintro ⟨q, more, ⟨⟨name_eq, spells, readOnly_eq⟩, ofValues⟩, hmore, rfl⟩
        refine ⟨q.ty, spells, ofValues, ?_⟩
        rw [hmore, ← name_eq, ← readOnly_eq]
        rfl
  have read := ok_iff_of_seen (decl.describeProperties lookup) (fun _ => rfl) cons [] ps qs
  rw [List.forall₂_and_left] at read
  simpa using read

theorem members_nodup_iff {decl : InterfaceDecl} {properties : List Property}
    {methods : List Method}
    (denoted : List.Forall₂ (PropertyDecl.Denotes lookup) decl.properties properties)
    (denoted' : List.Forall₂ (MethodDecl.Denotes lookup) decl.methods methods) :
    (properties.map (·.name) ++ methods.map (·.name)).Nodup ↔
      (decl.properties.map (·.name)).Nodup ∧ (decl.methods.map (·.name)).Nodup ∧
        ∀ p ∈ decl.properties, p.name ∉ decl.methods.map (·.name) := by
  rw [map_eq_of_forall₂ denoted fun _ _ h => h.name_eq,
    map_eq_of_forall₂ denoted' fun _ _ h => h.name_eq, List.nodup_append]
  refine and_congr_right fun _ => and_congr_right fun _ => ?_
  constructor
  · intro apart p hp taken
    exact apart _ (List.mem_map.mpr ⟨p, hp, rfl⟩) _ taken rfl
  · rintro apart _ property _ method rfl
    obtain ⟨p, hp, rfl⟩ := List.mem_map.mp property
    exact apart p hp method

theorem describe_eq_ok_iff (decl : InterfaceDecl) (id : InterfaceId) (d : InterfaceDescriptor) :
    decl.describe lookup id = .ok d ↔ decl.Denotes lookup id d ∧ d.Allowed := by
  unfold describe
  simp only [bind_eq_ok_iff, describeMethods_eq_ok_iff, describeProperties_eq_ok_iff,
    forall₂_and_right]
  constructor
  · rintro ⟨methods, ⟨distinct, related, allowed⟩, properties, ⟨distinct', apart, related', values⟩,
      h⟩
    cases h
    exact ⟨⟨rfl, rfl, related', related⟩, values, allowed,
      (members_nodup_iff related' related).mpr ⟨distinct', distinct, apart⟩⟩
  · rintro ⟨denotes, allowed⟩
    obtain ⟨distinct', distinct, apart⟩ :=
      (members_nodup_iff denotes.properties denotes.methods).mp allowed.members_nodup
    refine ⟨d.methods, ⟨distinct, denotes.methods, allowed.methods⟩, d.properties,
      ⟨distinct', apart, denotes.properties, allowed.properties⟩, ?_⟩
    rw [← denotes.name_eq, ← denotes.id_eq]
    rfl

end InterfaceDecl

/-! ### One descriptor for a declaration -/

theorem EnumDecl.Denotes.unique {decl : EnumDecl} {id : EnumId} {d e : EnumDescriptor}
    (first : decl.Denotes id d) (second : decl.Denotes id e) : d = e := by
  obtain ⟨id_eq, name_eq, backing_eq, values_eq⟩ := first
  obtain ⟨id_eq', name_eq', backing_eq', values_eq'⟩ := second
  cases d
  cases e
  simp_all

section

variable {lookup later : String → Option TypeKey}

theorem ParameterDecl.Denotes.unique :
    Relator.RightUnique (ParameterDecl.Denotes lookup) := by
  rintro decl ⟨name, ty⟩ ⟨name', ty'⟩ ⟨rfl, type⟩ ⟨rfl, type'⟩
  cases type.unique type'
  rfl

theorem PropertyDecl.Denotes.unique : Relator.RightUnique (PropertyDecl.Denotes lookup) := by
  rintro decl ⟨name, ty, readOnly⟩ ⟨name', ty', readOnly'⟩ ⟨rfl, type, rfl⟩ ⟨rfl, type', rfl⟩
  cases type.unique type'
  rfl

theorem MethodDecl.Denotes.unique : Relator.RightUnique (MethodDecl.Denotes lookup) := by
  rintro decl ⟨name, parameters, ty⟩ ⟨name', parameters', ty'⟩ ⟨rfl, type, related⟩
    ⟨rfl, type', related'⟩
  cases type.unique type'
  cases List.right_unique_forall₂' ParameterDecl.Denotes.unique related related'
  rfl

theorem InterfaceDecl.Denotes.unique {decl : InterfaceDecl} {id : InterfaceId}
    {d e : InterfaceDescriptor} (first : decl.Denotes lookup id d)
    (second : decl.Denotes lookup id e) : d = e := by
  obtain ⟨id, name, properties, methods⟩ := d
  obtain ⟨rfl, rfl, related, related'⟩ := first
  obtain ⟨id', name', properties', methods'⟩ := e
  obtain ⟨rfl, rfl, again, again'⟩ := second
  cases List.right_unique_forall₂' PropertyDecl.Denotes.unique related again
  cases List.right_unique_forall₂' MethodDecl.Denotes.unique related' again'
  rfl

/-- A declaration denotes the same descriptor wherever its names mean the same. -/
theorem InterfaceDecl.Denotes.mono {decl : InterfaceDecl} {id : InterfaceId}
    {d : InterfaceDescriptor} (denotes : decl.Denotes lookup id d)
    (kept : ∀ name key, lookup name = some key → later name = some key) :
    decl.Denotes later id d := by
  refine ⟨denotes.id_eq, denotes.name_eq, denotes.properties.imp ?_, denotes.methods.imp ?_⟩
  · intro p q h
    exact ⟨h.name_eq, h.type.mono kept, h.readOnly_eq⟩
  · intro m n h
    refine ⟨h.name_eq, h.returns.mono kept, h.parameters.imp fun p q hp => ?_⟩
    exact ⟨hp.name_eq, hp.type.mono kept⟩

end

def InterfaceDescriptor.types (d : InterfaceDescriptor) : List Ty :=
  d.properties.map (·.ty) ++ d.methods.flatMap fun m => m.returns :: m.parameters.map (·.ty)

/-- Every type in a descriptor is spelled in the declaration. -/
theorem InterfaceDecl.Denotes.spells {lookup : String → Option TypeKey} {decl : InterfaceDecl}
    {id : InterfaceId} {d : InterfaceDescriptor} (denotes : decl.Denotes lookup id d) {ty : Ty}
    (member : ty ∈ d.types) : ∃ text, Spells lookup text ty := by
  rcases List.mem_append.mp member with member | member
  · obtain ⟨p, hp, rfl⟩ := List.mem_map.mp member
    obtain ⟨q, _, h⟩ := mem_right_of_forall₂ denotes.properties hp
    exact ⟨q.type, h.type⟩
  · obtain ⟨m, hm, member⟩ := List.mem_flatMap.mp member
    obtain ⟨n, _, h⟩ := mem_right_of_forall₂ denotes.methods hm
    rcases List.mem_cons.mp member with rfl | member
    · exact ⟨n.returnType, h.returns⟩
    · obtain ⟨p, hp, rfl⟩ := List.mem_map.mp member
      obtain ⟨q, _, hq⟩ := mem_right_of_forall₂ h.parameters hp
      exact ⟨q.type, hq.type⟩

end ObjectBoundary
