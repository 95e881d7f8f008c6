import ObjectBoundary.Model.Registry
import ObjectBoundary.Proofs.Model.Items

/-!
# Types and their spellings

What a type contains and what a spelling contains correspond part by part. So the rules about types,
where `void` may stand and what the key of a dictionary may be, can be read off the spelling, and a
type that was resolved once is resolved alike wherever its names mean the same.
-/

namespace ObjectBoundary

namespace Ty

/-- The types that a type is made of, itself among them. -/
def parts : Ty → List Ty
  | .array elem => .array elem :: elem.parts
  | .set elem => .set elem :: elem.parts
  | .dict key elem => .dict key elem :: (key.parts ++ elem.parts)
  | ty => [ty]

/-- The keys of all dictionaries in the type are of types that may be keys. -/
def KeysAllowed (ty : Ty) : Prop := ∀ key elem, .dict key elem ∈ ty.parts → key.isKey = true

theorem self_mem_parts (ty : Ty) : ty ∈ ty.parts := by
  cases ty <;> simp [parts]

/-- What occurs in a part occurs in the type. -/
theorem mem_parts_trans {ty part inner : Ty} (member : part ∈ ty.parts)
    (occurs : inner ∈ part.parts) : inner ∈ ty.parts := by
  induction ty with
  | array elem ih | set elem ih =>
    rcases List.mem_cons.mp member with rfl | member
    · exact occurs
    · exact List.mem_cons_of_mem _ (ih member)
  | dict key elem ihKey ihElem =>
    rcases List.mem_cons.mp member with rfl | member
    · exact occurs
    rcases List.mem_append.mp member with member | member
    · exact List.mem_cons_of_mem _ (List.mem_append_left _ (ihKey member))
    · exact List.mem_cons_of_mem _ (List.mem_append_right _ (ihElem member))
  | _ =>
    rw [List.mem_singleton.mp member] at occurs
    exact occurs

theorem KeysAllowed.of_mem_parts {ty part : Ty} (allowed : ty.KeysAllowed)
    (member : part ∈ ty.parts) : part.KeysAllowed :=
  fun key elem occurs => allowed key elem (mem_parts_trans member occurs)

theorem containsVoid_iff (ty : Ty) : ty.containsVoid = true ↔ .void ∈ ty.parts := by
  induction ty with
  | array elem ih => simp [containsVoid, parts, ih]
  | set elem ih => simp [containsVoid, parts, ih]
  | dict key elem ihKey ihElem => simp [containsVoid, parts, ihKey, ihElem]
  | _ => simp [containsVoid, parts]

/-- Types of keys are not made of other types. -/
theorem keysAllowed_of_isKey {ty : Ty} (h : ty.isKey = true) : ty.KeysAllowed := by
  intro key elem member
  cases ty <;> simp_all [parts, isKey]

theorem keysAllowed_array (elem : Ty) : (array elem).KeysAllowed ↔ elem.KeysAllowed := by
  simp [KeysAllowed, parts]

theorem keysAllowed_set (elem : Ty) : (set elem).KeysAllowed ↔ elem.KeysAllowed := by
  simp [KeysAllowed, parts]

theorem keysAllowed_dict (key elem : Ty) :
    (dict key elem).KeysAllowed ↔ key.isKey = true ∧ elem.KeysAllowed := by
  constructor
  · intro allowed
    refine ⟨allowed key elem (self_mem_parts _), fun k e member => allowed k e ?_⟩
    simp [parts, member]
  · rintro ⟨hkey, allowed⟩ k e member
    simp only [parts, List.mem_cons, List.mem_append, dict.injEq] at member
    rcases member with ⟨rfl, rfl⟩ | member | member
    · exact hkey
    · exact keysAllowed_of_isKey hkey k e member
    · exact allowed k e member

/-- The primitive types and their names. -/
theorem primitive?_eq_some_iff (name : String) (ty : Ty) :
    primitive? name = some ty ↔
      (name, ty) ∈ [("void", void), ("bool", bool), ("int32_t", i32), ("int64_t", i64),
        ("float", f32), ("double", f64), ("string_t", string)] := by
  constructor
  · intro h
    unfold primitive? at h
    split at h <;> cases h <;> simp
  · intro h
    simp only [List.mem_cons, Prod.mk.injEq, List.not_mem_nil, or_false] at h
    rcases h with ⟨rfl, rfl⟩ | ⟨rfl, rfl⟩ | ⟨rfl, rfl⟩ | ⟨rfl, rfl⟩ | ⟨rfl, rfl⟩ | ⟨rfl, rfl⟩ |
      ⟨rfl, rfl⟩ <;> rfl

end Ty

/-- The type that a registered name stands for. -/
def TypeKey.ty : TypeKey → Ty
  | .interface id => .interface id
  | .enumeration id => .enumeration id

namespace TypeExpr

variable {lookup : String → Option TypeKey}

/-- The expressions that an expression is made of, itself among them. -/
def parts : TypeExpr → List TypeExpr
  | .named name => [.named name]
  | .array elem => .array elem :: elem.parts
  | .set elem => .set elem :: elem.parts
  | .dict key elem => .dict key elem :: (key.parts ++ elem.parts)

theorem denote?_named (name : String) (ty : Ty) :
    (named name).denote? lookup = some ty ↔
      Ty.primitive? name = some ty ∨
        Ty.primitive? name = none ∧ ∃ key, lookup name = some key ∧ ty = key.ty := by
  unfold denote?
  cases Ty.primitive? name with
  | some primitive => simp
  | none =>
    cases lookup name with
    | none => simp
    | some key => cases key <;> simp [TypeKey.ty, eq_comm]

theorem denote?_array (elem : TypeExpr) (ty : Ty) :
    (array elem).denote? lookup = some ty ↔
      ∃ inner, elem.denote? lookup = some inner ∧ .array inner = ty := by
  simp [denote?]

theorem denote?_set (elem : TypeExpr) (ty : Ty) :
    (set elem).denote? lookup = some ty ↔
      ∃ inner, elem.denote? lookup = some inner ∧ .set inner = ty := by
  simp [denote?]

theorem denote?_dict (key elem : TypeExpr) (ty : Ty) :
    (dict key elem).denote? lookup = some ty ↔
      ∃ k inner, key.denote? lookup = some k ∧ elem.denote? lookup = some inner ∧
        .dict k inner = ty := by
  simp [denote?, Option.bind_eq_some_iff]

theorem denote?_eq_dict_iff (e : TypeExpr) (k inner : Ty) :
    e.denote? lookup = some (.dict k inner) ↔
      ∃ key elem, e = .dict key elem ∧ key.denote? lookup = some k ∧
        elem.denote? lookup = some inner := by
  cases e with
  | named name =>
    simp only [denote?_named, Ty.primitive?_eq_some_iff, reduceCtorEq, false_and, exists_false,
      iff_false]
    rintro (primitive | ⟨_, key, _, same⟩)
    · simp at primitive
    · cases key <;> cases same
  | array elem => simp [denote?_array]
  | set elem => simp [denote?_set]
  | dict key elem =>
    rw [denote?_dict]
    constructor
    · rintro ⟨_, _, hkey, helem, same⟩
      cases same
      exact ⟨key, elem, rfl, hkey, helem⟩
    · rintro ⟨_, _, same, hkey, helem⟩
      cases same
      exact ⟨k, inner, hkey, helem, rfl⟩

/-- Only names denote declared types. -/
theorem denote?_eq_key_iff (e : TypeExpr) (key : TypeKey) :
    e.denote? lookup = some key.ty ↔
      ∃ name, e = .named name ∧ Ty.primitive? name = none ∧ lookup name = some key := by
  constructor
  · intro denotes
    cases e with
    | named name =>
      rcases (denote?_named name _).mp denotes with primitive | ⟨other, found, hfound, same⟩
      · rw [Ty.primitive?_eq_some_iff] at primitive
        cases key <;> simp [TypeKey.ty] at primitive
      · refine ⟨name, rfl, other, ?_⟩
        cases key <;> cases found <;> cases same <;> exact hfound
    | array elem =>
      obtain ⟨_, _, same⟩ := (denote?_array elem _).mp denotes
      cases key <;> cases same
    | set elem =>
      obtain ⟨_, _, same⟩ := (denote?_set elem _).mp denotes
      cases key <;> cases same
    | dict k elem =>
      obtain ⟨_, _, _, _, same⟩ := (denote?_dict k elem _).mp denotes
      cases key <;> cases same
  · rintro ⟨name, rfl, other, found⟩
    exact (denote?_named name _).mpr (.inr ⟨other, key, found, rfl⟩)

/-- An expression denotes a type when every name in it does. -/
theorem exists_denote?_iff (e : TypeExpr) :
    (∃ ty, e.denote? lookup = some ty) ↔
      ∀ name, .named name ∈ e.parts →
        (Ty.primitive? name).isSome = true ∨ (lookup name).isSome = true := by
  induction e with
  | named name =>
    simp only [denote?_named, parts, List.mem_singleton, named.injEq, forall_eq]
    cases Ty.primitive? name with
    | some primitive => simp
    | none => simp [Option.isSome_iff_exists]
  | array elem ih => simp [denote?_array, parts, ← ih, exists_comm]
  | set elem ih => simp [denote?_set, parts, ← ih, exists_comm]
  | dict key elem ihKey ihElem =>
    simp only [parts, List.mem_cons, List.mem_append, reduceCtorEq, false_or, or_imp, forall_and,
      ← ihKey, ← ihElem, denote?_dict]
    constructor
    · rintro ⟨_, k, inner, hk, hinner, -⟩
      exact ⟨⟨k, hk⟩, inner, hinner⟩
    · rintro ⟨⟨k, hk⟩, inner, hinner⟩
      exact ⟨_, k, inner, hk, hinner, rfl⟩

/-- The parts of the type are the types of the parts. -/
theorem mem_parts_iff {e : TypeExpr} {ty : Ty} (denotes : e.denote? lookup = some ty) (part : Ty) :
    part ∈ ty.parts ↔ ∃ e' ∈ e.parts, e'.denote? lookup = some part := by
  induction e generalizing ty with
  | named name =>
    have single : ty.parts = [ty] := by
      rcases (denote?_named name ty).mp denotes with h | ⟨_, key, _, rfl⟩
      · rw [Ty.primitive?_eq_some_iff] at h
        simp only [List.mem_cons, Prod.mk.injEq, List.not_mem_nil, or_false] at h
        rcases h with ⟨_, rfl⟩ | ⟨_, rfl⟩ | ⟨_, rfl⟩ | ⟨_, rfl⟩ | ⟨_, rfl⟩ | ⟨_, rfl⟩ | ⟨_, rfl⟩ <;>
          rfl
      · cases key <;> rfl
    simp [single, parts, denotes, eq_comm]
  | array elem ih =>
    obtain ⟨inner, hinner, rfl⟩ := (denote?_array elem ty).mp denotes
    simp [Ty.parts, parts, ih hinner, denotes, eq_comm]
  | set elem ih =>
    obtain ⟨inner, hinner, rfl⟩ := (denote?_set elem ty).mp denotes
    simp [Ty.parts, parts, ih hinner, denotes, eq_comm]
  | dict key elem ihKey ihElem =>
    obtain ⟨k, inner, hk, hinner, rfl⟩ := (denote?_dict key elem ty).mp denotes
    simp [Ty.parts, parts, ihKey hk, ihElem hinner, denotes, or_and_right, exists_or, eq_comm]

/-- The parts of an expression that denotes a type denote types. -/
theorem exists_denote?_of_mem_parts {e part : TypeExpr} {ty : Ty}
    (denotes : e.denote? lookup = some ty) (member : part ∈ e.parts) :
    ∃ inner, part.denote? lookup = some inner := by
  induction e generalizing ty with
  | named name =>
    rw [List.mem_singleton.mp member]
    exact ⟨ty, denotes⟩
  | array elem ih =>
    obtain ⟨inner, hinner, _⟩ := (denote?_array elem ty).mp denotes
    rcases List.mem_cons.mp member with rfl | member
    · exact ⟨ty, denotes⟩
    · exact ih hinner member
  | set elem ih =>
    obtain ⟨inner, hinner, _⟩ := (denote?_set elem ty).mp denotes
    rcases List.mem_cons.mp member with rfl | member
    · exact ⟨ty, denotes⟩
    · exact ih hinner member
  | dict key elem ihKey ihElem =>
    obtain ⟨k, inner, hkey, hinner, _⟩ := (denote?_dict key elem ty).mp denotes
    rcases List.mem_cons.mp member with rfl | member
    · exact ⟨ty, denotes⟩
    rcases List.mem_append.mp member with member | member
    · exact ihKey hkey member
    · exact ihElem hinner member

/-- An expression denotes the same type wherever its names mean the same. -/
theorem denote?_mono {later : String → Option TypeKey}
    (kept : ∀ name key, lookup name = some key → later name = some key) {e : TypeExpr} {ty : Ty}
    (denotes : e.denote? lookup = some ty) : e.denote? later = some ty := by
  induction e generalizing ty with
  | named name =>
    rw [denote?_named] at denotes ⊢
    rcases denotes with primitive | ⟨other, key, hkey, rfl⟩
    · exact .inl primitive
    · exact .inr ⟨other, key, kept name key hkey, rfl⟩
  | array elem ih =>
    obtain ⟨inner, hinner, rfl⟩ := (denote?_array elem ty).mp denotes
    exact (denote?_array elem _).mpr ⟨inner, ih hinner, rfl⟩
  | set elem ih =>
    obtain ⟨inner, hinner, rfl⟩ := (denote?_set elem ty).mp denotes
    exact (denote?_set elem _).mpr ⟨inner, ih hinner, rfl⟩
  | dict key elem ihKey ihElem =>
    obtain ⟨k, inner, hk, hinner, rfl⟩ := (denote?_dict key elem ty).mp denotes
    exact (denote?_dict key elem _).mpr ⟨k, inner, ihKey hk, ihElem hinner, rfl⟩

/-- An expression is resolved to the type that it denotes when the keys of dictionaries are
allowed. -/
theorem resolve_eq_ok_iff (context : TypeContext) (e : TypeExpr) (ty : Ty) :
    e.resolve lookup context = .ok ty ↔ e.denote? lookup = some ty ∧ ty.KeysAllowed := by
  induction e generalizing ty with
  | named name =>
    have plain : (named name).denote? lookup = some ty → ty.KeysAllowed := by
      intro denotes key elem member
      obtain ⟨e', he', h⟩ := (mem_parts_iff denotes _).mp member
      obtain ⟨_, _, rfl, _⟩ := (denote?_eq_dict_iff e' key elem).mp h
      cases List.mem_singleton.mp he'
    rw [and_iff_left_of_imp plain]
    unfold resolve denote?
    cases Ty.primitive? name with
    | some primitive => simp
    | none =>
      cases lookup name with
      | none => simp
      | some key => cases key <;> simp
  | array elem ih =>
    simp only [resolve, map_eq_ok_iff, ih, denote?_array]
    constructor
    · rintro ⟨inner, ⟨hinner, allowed⟩, rfl⟩
      exact ⟨⟨inner, hinner, rfl⟩, (Ty.keysAllowed_array inner).mpr allowed⟩
    · rintro ⟨⟨inner, hinner, rfl⟩, allowed⟩
      exact ⟨inner, ⟨hinner, (Ty.keysAllowed_array inner).mp allowed⟩, rfl⟩
  | set elem ih =>
    simp only [resolve, map_eq_ok_iff, ih, denote?_set]
    constructor
    · rintro ⟨inner, ⟨hinner, allowed⟩, rfl⟩
      exact ⟨⟨inner, hinner, rfl⟩, (Ty.keysAllowed_set inner).mpr allowed⟩
    · rintro ⟨⟨inner, hinner, rfl⟩, allowed⟩
      exact ⟨inner, ⟨hinner, (Ty.keysAllowed_set inner).mp allowed⟩, rfl⟩
  | dict key elem ihKey ihElem =>
    rw [resolve, bind_eq_ok_iff, denote?_dict]
    constructor
    · rintro ⟨k, hk, h⟩
      split at h
      · next isKey =>
        obtain ⟨inner, hinner, h⟩ := bind_eq_ok_iff.mp h
        cases h
        obtain ⟨denotes, allowed⟩ := (ihElem inner).mp hinner
        exact ⟨⟨k, inner, ((ihKey k).mp hk).1, denotes, rfl⟩,
          (Ty.keysAllowed_dict k inner).mpr ⟨isKey, allowed⟩⟩
      · cases h
    · rintro ⟨⟨k, inner, hk, hinner, rfl⟩, allowed⟩
      obtain ⟨isKey, allowed⟩ := (Ty.keysAllowed_dict k inner).mp allowed
      refine ⟨k, (ihKey k).mpr ⟨hk, Ty.keysAllowed_of_isKey isKey⟩, ?_⟩
      rw [if_pos isKey, bind_eq_ok_iff]
      exact ⟨inner, (ihElem inner).mpr ⟨hinner, allowed⟩, rfl⟩

end TypeExpr

/-- A text is the spelling of a type. -/
def Spells (lookup : String → Option TypeKey) (text : String) (ty : Ty) : Prop :=
  ∃ e, TypeExpr.parse text = .ok e ∧ e.denote? lookup = some ty

namespace Spells

variable {lookup later : String → Option TypeKey} {text : String} {ty : Ty}

theorem unique {other : Ty} (first : Spells lookup text ty) (second : Spells lookup text other) :
    ty = other := by
  obtain ⟨e, parsed, denotes⟩ := first
  obtain ⟨e', parsed', denotes'⟩ := second
  cases parsed.symm.trans parsed'
  exact Option.some.inj (denotes.symm.trans denotes')

theorem mono (spells : Spells lookup text ty)
    (kept : ∀ name key, lookup name = some key → later name = some key) :
    Spells later text ty := by
  obtain ⟨e, parsed, denotes⟩ := spells
  exact ⟨e, parsed, TypeExpr.denote?_mono kept denotes⟩

/-- The registered types in a type are those that names stand for. -/
theorem exists_lookup (spells : Spells lookup text ty) {key : TypeKey}
    (member : key.ty ∈ ty.parts) : ∃ name, lookup name = some key := by
  obtain ⟨e, _, denotes⟩ := spells
  obtain ⟨e', _, h⟩ := (TypeExpr.mem_parts_iff denotes _).mp member
  obtain ⟨name, _, _, found⟩ := (TypeExpr.denote?_eq_key_iff e' key).mp h
  exact ⟨name, found⟩

end Spells

theorem resolveText_eq_ok_iff {lookup : String → Option TypeKey} (context : TypeContext)
    (text : String) (ty : Ty) :
    resolveText lookup context text = .ok ty ↔ Spells lookup text ty ∧ ty.KeysAllowed := by
  unfold resolveText Spells
  cases TypeExpr.parse text with
  | ok e => simp [TypeExpr.resolve_eq_ok_iff]
  | error part => simp

end ObjectBoundary
