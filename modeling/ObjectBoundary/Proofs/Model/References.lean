import ObjectBoundary.Proofs.Model.Grammar
import ObjectBoundary.Proofs.Model.Growth
import ObjectBoundary.Proofs.Model.Renumbering

/-!
# References to declared types

A declaration may have any name, but only a name that the grammar knows, and that is not the name of
a primitive type, can be written where a type stands. These are the declarations that later models
can refer to; what such a name refers to never changes.
-/

namespace ObjectBoundary

/-- A name that stands for a declared type where a type is written. -/
structure IsTypeName (name : String) : Prop where
  is_name : TypeExpr.IsName name.toList
  not_primitive : Ty.primitive? name = none

namespace TypeExpr

theorem isName_of_parse {text name : String} (read : parse text = .ok (.named name)) :
    IsName name.toList := by
  have derives := parse_eq_ok_iff.mp read
  generalize text.toList = cs, hexpr : TypeExpr.named name = e at derives
  cases derives with
  | named _ isName _ =>
    cases hexpr
    rwa [String.toList_ofList]
  | array | set | dict => cases hexpr

/-- A name is read as itself. -/
theorem parse_of_isName {name : String} (isName : IsName name.toList) :
    parse name = .ok (.named name) :=
  parse_eq_ok_iff.mpr (WellNamed.derives_spelling (e := .named name) isName)

end TypeExpr

theorem TypeKey.keysAllowed (key : TypeKey) : key.ty.KeysAllowed := by
  intro k elem member
  cases key <;> simp [TypeKey.ty, Ty.parts] at member

/-- The texts that stand for a declared type. -/
theorem resolveText_eq_key_iff {lookup : String → Option TypeKey} (context : TypeContext)
    (text : String) (key : TypeKey) :
    resolveText lookup context text = .ok key.ty ↔
      ∃ name, TypeExpr.parse text = .ok (.named name) ∧ Ty.primitive? name = none ∧
        lookup name = some key := by
  rw [resolveText_eq_ok_iff, and_iff_left key.keysAllowed]
  constructor
  · rintro ⟨e, read, denotes⟩
    obtain ⟨name, rfl, other, found⟩ := (TypeExpr.denote?_eq_key_iff e key).mp denotes
    exact ⟨name, read, other, found⟩
  · rintro ⟨name, read, other, found⟩
    exact ⟨_, read, (TypeExpr.denote?_eq_key_iff _ key).mpr ⟨name, rfl, other, found⟩⟩

/-- The names of the primitive types are names. -/
theorem isName_of_primitive {name : String} {ty : Ty} (primitive : Ty.primitive? name = some ty) :
    TypeExpr.IsName name.toList := by
  have listed := (Ty.primitive?_eq_some_iff name ty).mp primitive
  rw [← TypeExpr.isIdentifier_iff]
  simp only [List.mem_cons, Prod.mk.injEq, List.not_mem_nil, or_false] at listed
  rcases listed with ⟨rfl, _⟩ | ⟨rfl, _⟩ | ⟨rfl, _⟩ | ⟨rfl, _⟩ | ⟨rfl, _⟩ | ⟨rfl, _⟩ | ⟨rfl, _⟩ <;>
    decide

/-- Where a primitive type has its name, nothing else does. -/
theorem resolveText_primitive {lookup : String → Option TypeKey} (context : TypeContext)
    {name : String} {ty : Ty} (primitive : Ty.primitive? name = some ty) :
    resolveText lookup context name = .ok ty := by
  rw [resolveText, TypeExpr.parse_of_isName (isName_of_primitive primitive)]
  simp only [TypeExpr.resolve, primitive]

namespace Registry

variable {r : Registry} {name : String} {key : TypeKey}

/-- A registered type is referred to by its name or not at all. -/
theorem Indexed.isTypeName_of_resolveText (indexed : r.Indexed) (context : TypeContext)
    (found : r.lookup? name = some key) {text : String}
    (resolved : resolveText r.lookup? context text = .ok key.ty) : IsTypeName name := by
  obtain ⟨other, read, notPrimitive, same⟩ :=
    (resolveText_eq_key_iff context text key).mp resolved
  rw [indexed.name_unique found same]
  exact ⟨TypeExpr.isName_of_parse read, notPrimitive⟩

theorem resolveText_of_isTypeName (context : TypeContext) (found : r.lookup? name = some key)
    (isTypeName : IsTypeName name) : resolveText r.lookup? context name = .ok key.ty :=
  (resolveText_eq_key_iff context name key).mpr
    ⟨name, TypeExpr.parse_of_isName isTypeName.is_name, isTypeName.not_primitive, found⟩

/-- Whether something registered can be referred to depends on its name only. -/
theorem Indexed.referable_iff (indexed : r.Indexed) (context : TypeContext)
    (found : r.lookup? name = some key) :
    (resolveText r.lookup? context name = .ok key.ty ↔ IsTypeName name) ∧
      ((∃ text, resolveText r.lookup? context text = .ok key.ty) ↔ IsTypeName name) := by
  have refers := resolveText_of_isTypeName context found
  refine ⟨⟨indexed.isTypeName_of_resolveText context found, refers⟩, ?_, fun h => ⟨name, refers h⟩⟩
  rintro ⟨text, resolved⟩
  exact indexed.isTypeName_of_resolveText context found resolved

/-- The declarations that can be referred to. After a model is loaded, and whatever is attempted
later, the name of a declaration refers to it exactly when the grammar takes it for the name of a
type and no primitive type has it; a declaration with another name is referred to by no text at all.
The names of primitive types refer to these. -/
theorem declared_referable_iff (ms : List Model) {m : Model} {l : Loaded} {r' : Registry}
    (loaded : (loadAll {} ms).load m = .ok (l, r')) (later : List Model) (context : TypeContext) :
    (∀ name id, (name, id) ∈ l.interfaces →
      (resolveText (r'.loadAll later).lookup? context name = .ok (.interface id) ↔
        IsTypeName name) ∧
      ((∃ text, resolveText (r'.loadAll later).lookup? context text = .ok (.interface id)) ↔
        IsTypeName name)) ∧
    (∀ name id, (name, id) ∈ l.enums →
      (resolveText (r'.loadAll later).lookup? context name = .ok (.enumeration id) ↔
        IsTypeName name) ∧
      ((∃ text, resolveText (r'.loadAll later).lookup? context text = .ok (.enumeration id)) ↔
        IsTypeName name)) ∧
    ∀ name ty, Ty.primitive? name = some ty →
      resolveText (r'.loadAll later).lookup? context name = .ok ty := by
  have wf := wellFormed_empty.loadAll ms
  have indexed := ((wf.load loaded).loadAll later).toIndexed
  have kept := (extends_loadAll r' later).lookup
  obtain ⟨enums, interfaces, admits, rfl, rfl⟩ := load_eq_ok_iff.mp loaded
  have loads := admits.loads wf.toIndexed
  refine ⟨fun name id member => ?_, fun name id member => ?_, fun name ty primitive => ?_⟩
  · obtain ⟨decl, _, rfl, found⟩ := mem_right_of_forall₂ loads.interfaces_listed member
    exact indexed.referable_iff context (kept _ (.interface id) found)
  · obtain ⟨decl, _, rfl, found⟩ := mem_right_of_forall₂ loads.enums_listed member
    exact indexed.referable_iff context (kept _ (.enumeration id) found)
  · exact resolveText_primitive context primitive

/-- A type whose name has a blank in it cannot be referred to, unlike the one declared beside it. -/
theorem blank_name_not_referable :
    ∃ r', ({} : Registry).load { interfaces := [{ name := "my type" }, { name := "Note" }] } =
        .ok (⟨"", [("my type", ⟨0⟩), ("Note", ⟨1⟩)], []⟩, r') ∧
      (∀ later context text,
        resolveText (r'.loadAll later).lookup? context text ≠ .ok (.interface ⟨0⟩)) ∧
      ∀ later context,
        resolveText (r'.loadAll later).lookup? context "Note" = .ok (.interface ⟨1⟩) := by
  have loaded : ({} : Registry).load
      { interfaces := [{ name := "my type" }, { name := "Note" }] } =
        .ok (⟨"", [("my type", ⟨0⟩), ("Note", ⟨1⟩)], []⟩, _) := rfl
  have unreadable : ¬ IsTypeName "my type" := fun h =>
    absurd (TypeExpr.isIdentifier_iff.mpr h.is_name) (by decide)
  have readable : IsTypeName "Note" := ⟨TypeExpr.isIdentifier_iff.mp (by decide), rfl⟩
  refine ⟨_, loaded, fun later context text resolved => ?_, fun later context => ?_⟩
  · have referable := (declared_referable_iff [] loaded later context).1 "my type" ⟨0⟩ (by simp)
    exact unreadable (referable.2.mp ⟨text, resolved⟩)
  · have referable := (declared_referable_iff [] loaded later context).1 "Note" ⟨1⟩ (by simp)
    exact referable.1.mpr readable

end Registry

end ObjectBoundary
