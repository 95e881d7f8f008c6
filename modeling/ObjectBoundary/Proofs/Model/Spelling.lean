import ObjectBoundary.Proofs.Model.References

/-!
# Spellings of resolved types

A registry writes a resolved type with the names of its descriptors. What it writes for a type that
occurs in it can be read again, and means that type for good, because only names that the grammar
knows, and that no primitive type has, ever get into a resolved type.
-/

namespace ObjectBoundary

/-! ### Names in expressions that were read -/

namespace TypeExpr

theorem Derives.wellNamed {text : List Char} {e : TypeExpr} (derives : Derives text e) :
    e.WellNamed := by
  induction derives with
  | named _ isName _ =>
    rw [WellNamed, String.toList_ofList]
    exact isName
  | array _ _ _ _ ih => exact ih
  | set _ _ _ _ ih => exact ih
  | dict _ _ _ _ _ ihKey ihElem => exact ⟨ihKey, ihElem⟩

theorem WellNamed.of_mem_parts {e part : TypeExpr} (named : e.WellNamed)
    (member : part ∈ e.parts) : part.WellNamed := by
  induction e with
  | named name =>
    rw [List.mem_singleton.mp member]
    exact named
  | array elem ih | set elem ih =>
    rcases List.mem_cons.mp member with rfl | member
    · exact named
    · exact ih named member
  | dict key elem ihKey ihElem =>
    rcases List.mem_cons.mp member with rfl | member
    · exact named
    rcases List.mem_append.mp member with member | member
    · exact ihKey named.1 member
    · exact ihElem named.2 member

/-- A well-named expression is read from its own spelling. -/
theorem WellNamed.parse_spelling {e : TypeExpr} (named : e.WellNamed) :
    parse (String.ofList e.spelling) = .ok e := by
  rw [parse_eq_ok_iff, String.toList_ofList]
  exact named.derives_spelling

end TypeExpr

/-- A registered type in a type that a text spells stands under a name that can be written. -/
theorem Spells.exists_typeName {lookup : String → Option TypeKey} {text : String} {ty : Ty}
    (spells : Spells lookup text ty) {key : TypeKey} (member : key.ty ∈ ty.parts) :
    ∃ name, IsTypeName name ∧ lookup name = some key := by
  obtain ⟨e, read, denotes⟩ := spells
  obtain ⟨part, occurs, h⟩ := (TypeExpr.mem_parts_iff denotes _).mp member
  obtain ⟨name, rfl, notPrimitive, found⟩ := (TypeExpr.denote?_eq_key_iff part key).mp h
  have named := (TypeExpr.parse_eq_ok_iff.mp read).wellNamed.of_mem_parts occurs
  exact ⟨name, ⟨named, notPrimitive⟩, found⟩

/-- The dictionaries in the types of the members have types of keys. -/
theorem InterfaceDescriptor.Allowed.keysAllowed {d : InterfaceDescriptor} (allowed : d.Allowed)
    {ty : Ty} (member : ty ∈ d.types) : ty.KeysAllowed := by
  rcases List.mem_append.mp member with member | member
  · obtain ⟨p, hp, rfl⟩ := List.mem_map.mp member
    exact (allowed.properties p hp).keys
  · obtain ⟨m, hm, member⟩ := List.mem_flatMap.mp member
    rcases List.mem_cons.mp member with rfl | member
    · exact (allowed.methods m hm).returns_keys
    · obtain ⟨p, hp, rfl⟩ := List.mem_map.mp member
      exact ((allowed.methods m hm).parameters p hp).keys

namespace Registry

variable {r r' : Registry} {ty : Ty}

/-! ### The expression that is written -/

/-- The expression whose spelling is written for a resolved type. -/
def exprOf (r : Registry) : Ty → TypeExpr
  | .array elem => .array (r.exprOf elem)
  | .set elem => .set (r.exprOf elem)
  | .dict key elem => .dict (r.exprOf key) (r.exprOf elem)
  | ty => .named (r.typeName ty)

theorem typeName_eq_spelling (r : Registry) (ty : Ty) :
    r.typeName ty = String.ofList (r.exprOf ty).spelling := by
  induction ty with
  | array elem ih | set elem ih =>
    rw [← String.toList_inj]
    simp [typeName, exprOf, TypeExpr.spelling, TypeExpr.enclosed, ih]
  | dict key elem ihKey ihElem =>
    rw [← String.toList_inj]
    simp [typeName, exprOf, TypeExpr.spelling, TypeExpr.enclosed, ihKey, ihElem]
  | _ => exact String.ofList_toList.symm

/-- The type is made of primitive types and of registered ones whose names can be written. -/
def Writable (r : Registry) (ty : Ty) : Prop :=
  ∀ key : TypeKey, key.ty ∈ ty.parts → ∃ name, IsTypeName name ∧ r.lookup? name = some key

theorem Writable.of_mem_parts {part : Ty} (writable : r.Writable ty) (member : part ∈ ty.parts) :
    r.Writable part :=
  fun key occurs => writable key (Ty.mem_parts_trans member occurs)

/-- What is written for a registered type is the name under which it is found. -/
theorem Indexed.typeName_key (indexed : r.Indexed) {name : String} {key : TypeKey}
    (found : r.lookup? name = some key) : r.typeName key.ty = name := by
  cases key with
  | interface id =>
    obtain ⟨d, hd, rfl⟩ := (indexed.lookup_interface name id).mp found
    simp only [TypeKey.ty, typeName, tagName, hd]
  | enumeration id =>
    obtain ⟨d, hd, rfl⟩ := (indexed.lookup_enum name id).mp found
    simp only [TypeKey.ty, typeName, hd]

/-- The expression has only proper names and denotes the type. -/
theorem Indexed.exprOf_denotes (indexed : r.Indexed) (writable : r.Writable ty) :
    (r.exprOf ty).WellNamed ∧ (r.exprOf ty).denote? r.lookup? = some ty := by
  have registered (key : TypeKey) (writable : r.Writable key.ty) :
      (TypeExpr.named (r.typeName key.ty)).WellNamed ∧
        (TypeExpr.named (r.typeName key.ty)).denote? r.lookup? = some key.ty := by
    obtain ⟨name, isTypeName, found⟩ := writable key (Ty.self_mem_parts _)
    rw [indexed.typeName_key found, TypeExpr.denote?_named]
    exact ⟨isTypeName.is_name, .inr ⟨isTypeName.not_primitive, key, found, rfl⟩⟩
  have primitive {ty : Ty} (h : Ty.primitive? (r.typeName ty) = some ty) :
      (TypeExpr.named (r.typeName ty)).WellNamed ∧
        (TypeExpr.named (r.typeName ty)).denote? r.lookup? = some ty :=
    ⟨isName_of_primitive h, (TypeExpr.denote?_named _ _).mpr (.inl h)⟩
  induction ty with
  | array elem ih =>
    obtain ⟨named, denotes⟩ := ih (writable.of_mem_parts (by simp [Ty.parts, Ty.self_mem_parts]))
    exact ⟨named, (TypeExpr.denote?_array _ _).mpr ⟨elem, denotes, rfl⟩⟩
  | set elem ih =>
    obtain ⟨named, denotes⟩ := ih (writable.of_mem_parts (by simp [Ty.parts, Ty.self_mem_parts]))
    exact ⟨named, (TypeExpr.denote?_set _ _).mpr ⟨elem, denotes, rfl⟩⟩
  | dict key elem ihKey ihElem =>
    obtain ⟨namedKey, denotesKey⟩ :=
      ihKey (writable.of_mem_parts (by simp [Ty.parts, Ty.self_mem_parts]))
    obtain ⟨namedElem, denotesElem⟩ :=
      ihElem (writable.of_mem_parts (by simp [Ty.parts, Ty.self_mem_parts]))
    exact ⟨⟨namedKey, namedElem⟩,
      (TypeExpr.denote?_dict _ _ _).mpr ⟨key, elem, denotesKey, denotesElem, rfl⟩⟩
  | interface id => exact registered (.interface id) writable
  | enumeration id => exact registered (.enumeration id) writable
  | _ => exact primitive rfl

/-! ### Types that occur -/

/-- The type of a property, a parameter or a result of a registered interface, or a part of one. -/
def Occurs (r : Registry) (ty : Ty) : Prop :=
  ∃ d ∈ r.interfaces, ∃ whole ∈ d.types, ty ∈ whole.parts

/-- Every type that a member has was spelled. -/
def Spelled (r : Registry) : Prop :=
  ∀ d ∈ r.interfaces, ∀ ty ∈ d.types, ∃ text, Spells r.lookup? text ty

theorem Spelled.load {m : Model} {l : Loaded} (spelled : r.Spelled) (indexed : r.Indexed)
    (loaded : r.load m = .ok (l, r')) : r'.Spelled := by
  obtain ⟨enums, interfaces, admits, -, rfl⟩ := load_eq_ok_iff.mp loaded
  intro d member ty occurs
  rcases List.mem_append.mp member with old | new
  · obtain ⟨text, spells⟩ := spelled d old ty occurs
    exact ⟨text, spells.mono (extends_commit r enums interfaces).lookup⟩
  · obtain ⟨_, _, _, denotes, _⟩ :=
      mem_right_of_forall₂ admits.interfaces_described (List.mem_filter.mp new).1
    rw [admits.lookup?_commit indexed.holds]
    exact denotes.spells occurs

theorem spelled_loadAll (ms : List Model) : (loadAll {} ms).Spelled := by
  -- the index must be in step, too, for the new descriptors to be spelled in it
  suffices both : (loadAll {} ms).WellFormed ∧ (loadAll {} ms).Spelled from both.2
  refine loadAll_induction (P := fun r => r.WellFormed ∧ r.Spelled) ?_ ?_ ms
  · exact ⟨wellFormed_empty, by simp [Spelled]⟩
  · rintro r m l r' ⟨wf, spelled⟩ loaded
    exact ⟨wf.load loaded, spelled.load wf.toIndexed loaded⟩

theorem Spelled.writable (spelled : r.Spelled) (occurs : r.Occurs ty) : r.Writable ty := by
  obtain ⟨d, member, whole, typed, part⟩ := occurs
  obtain ⟨text, spells⟩ := spelled d member whole typed
  exact fun key inside => spells.exists_typeName (Ty.mem_parts_trans part inside)

theorem WellFormed.keysAllowed (wf : r.WellFormed) (occurs : r.Occurs ty) : ty.KeysAllowed := by
  obtain ⟨d, member, whole, typed, part⟩ := occurs
  exact ((wf.interfaces_allowed d member).keysAllowed typed).of_mem_parts part

/-- The spelling of a type that occurs is read as an expression that is resolved to the type, in
this registry and in every one that extends it. -/
theorem WellFormed.typeName_resolved (wf : r.WellFormed) (spelled : r.Spelled)
    (occurs : r.Occurs ty) :
    ∃ e, TypeExpr.parse (r.typeName ty) = .ok e ∧
      ∀ r', r.Extends r' → ∀ context, e.resolve r'.lookup? context = .ok ty := by
  obtain ⟨named, denotes⟩ := wf.exprOf_denotes (spelled.writable occurs)
  refine ⟨r.exprOf ty, ?_, fun r' ext context => ?_⟩
  · rw [typeName_eq_spelling]
    exact named.parse_spelling
  · exact (TypeExpr.resolve_eq_ok_iff context _ _).mpr
      ⟨TypeExpr.denote?_mono ext.lookup denotes, wf.keysAllowed occurs⟩

/-- Names of types are faithful spellings. After any attempts to load models, what is written for
the type of a property, a parameter or a result, or for a part of such a type, can be read, and the
expression is resolved to that very type at every place, now and after whatever is attempted later.
So types that are written alike are the same. -/
theorem typeName_faithful (ms : List Model) :
    (∀ ty, (loadAll {} ms).Occurs ty →
      ∃ e, TypeExpr.parse ((loadAll {} ms).typeName ty) = .ok e ∧
        ∀ later context, e.resolve ((loadAll {} ms).loadAll later).lookup? context = .ok ty) ∧
    ∀ ty ty', (loadAll {} ms).Occurs ty → (loadAll {} ms).Occurs ty' →
      (loadAll {} ms).typeName ty = (loadAll {} ms).typeName ty' → ty = ty' := by
  have wf := wellFormed_empty.loadAll ms
  have spelled := spelled_loadAll ms
  constructor
  · intro ty occurs
    obtain ⟨e, read, resolved⟩ := wf.typeName_resolved spelled occurs
    exact ⟨e, read, fun later => resolved _ (extends_loadAll _ later)⟩
  · intro ty ty' occurs occurs' same
    obtain ⟨e, read, resolved⟩ := wf.typeName_resolved spelled occurs
    obtain ⟨e', read', resolved'⟩ := wf.typeName_resolved spelled occurs'
    rw [same, read'] at read
    cases read
    have context := TypeContext.propertyOf "" ""
    exact Except.ok.inj
      ((resolved _ (Extends.refl _) context).symm.trans (resolved' _ (Extends.refl _) context))

/-- The result of counting the tasks by their status. -/
theorem status_counts_spelled :
    TaskModel.registry.typeName (.dict (.enumeration ⟨1⟩) .i32) = "dict<Status,int32_t>" ∧
      ∃ e, TypeExpr.parse "dict<Status,int32_t>" = .ok e ∧ ∀ later context,
        e.resolve (TaskModel.registry.loadAll later).lookup? context =
          .ok (.dict (.enumeration ⟨1⟩) .i32) := by
  have reached : loadAll {} [TaskModel.model] = TaskModel.registry :=
    congrArg Prod.snd (register_eq_ok_iff.mpr TaskModel.load_model)
  have occurs : (loadAll {} [TaskModel.model]).Occurs (.dict (.enumeration ⟨1⟩) .i32) := by
    rw [reached]
    exact ⟨TaskModel.projectDescriptor, by decide, _, by decide, Ty.self_mem_parts _⟩
  have faithful := (typeName_faithful [TaskModel.model]).1 _ occurs
  rw [reached] at faithful
  exact ⟨by decide, faithful⟩

end Registry

end ObjectBoundary
