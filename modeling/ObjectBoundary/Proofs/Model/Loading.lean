import ObjectBoundary.Proofs.Model.Declaration
import ObjectBoundary.Proofs.Model.Places

/-!
# What is loaded

A model is loaded when every declaration has a descriptor in the scope of the model, and the
descriptors in places that were taken before are the ones that stand there. A registry is what is
left after a sequence of attempts, of which some may fail.
-/

namespace ObjectBoundary

namespace Registry

variable {r r' : Registry} {m : Model} {l : Loaded} {enums : List EnumDescriptor}
  {interfaces : List InterfaceDescriptor}

/-- The descriptors with which the declarations of a model are registered. -/
structure Admits (r : Registry) (m : Model) (enums : List EnumDescriptor)
    (interfaces : List InterfaceDescriptor) : Prop where
  names_nodup : m.names.Nodup
  enums_described : List.Forall₂ (fun decl d => r.scope m decl.name = some (.enumeration d.id) ∧
    decl.Denotes d.id d ∧ d.Allowed) m.enums enums
  interfaces_described : List.Forall₂ (fun decl d => r.scope m decl.name = some (.interface d.id) ∧
    decl.Denotes (r.scope m) d.id d ∧ d.Allowed) m.interfaces interfaces
  enums_kept : ∀ d ∈ enums, ∀ old, r.enum? d.id = some old → old = d
  interfaces_kept : ∀ d ∈ interfaces, ∀ old, r.interface? d.id = some old → old = d

/-- The check that every descriptor is the one in its place, if there is one. -/
theorem check_eq_ok_iff {δ : Type} [DecidableEq δ] (find : δ → Option δ) (cause : δ → ModelError)
    (check : List δ → Except ModelError Unit) (nil : check [] = .ok ())
    (cons : ∀ d ds, check (d :: ds) =
      match find d with
      | some old => if old = d then check ds else .error (cause d)
      | none => check ds)
    (ds : List δ) : check ds = .ok () ↔ ∀ d ∈ ds, ∀ old, find d = some old → old = d := by
  induction ds with
  | nil => simp [nil]
  | cons d ds ih =>
    rw [cons, List.forall_mem_cons, ← ih]
    cases find d with
    | none => simp
    | some old => by_cases same : old = d <;> simp [same]

theorem checkEnums_eq_ok_iff (r : Registry) (ds : List EnumDescriptor) :
    r.checkEnums ds = .ok () ↔ ∀ d ∈ ds, ∀ old, r.enum? d.id = some old → old = d :=
  check_eq_ok_iff (r.enum? ·.id) (.redefinition ·.name) r.checkEnums rfl
    (fun d _ => by rw [checkEnums]; cases r.enum? d.id <;> rfl) ds

theorem checkInterfaces_eq_ok_iff (r : Registry) (ds : List InterfaceDescriptor) :
    r.checkInterfaces ds = .ok () ↔ ∀ d ∈ ds, ∀ old, r.interface? d.id = some old → old = d :=
  check_eq_ok_iff (r.interface? ·.id) (.redefinition ·.name) r.checkInterfaces rfl
    (fun d _ => by rw [checkInterfaces]; cases r.interface? d.id <;> rfl) ds

/-- What the caller of a successful load is told. -/
def report (m : Model) (enums : List EnumDescriptor) (interfaces : List InterfaceDescriptor) :
    Loaded where
  space := m.space
  interfaces := interfaces.map fun d => (d.name, d.id)
  enums := enums.map fun d => (d.name, d.id)

/-- The passes of a load, one after the other. -/
theorem load_passes_iff :
    r.load m = .ok (l, r') ↔
      ∃ enumPlaces interfacePlaces enums interfaces,
        (r.reserveEnums r.enums.length [] m.enums = .ok enumPlaces ∧
          r.reserveInterfaces r.interfaces.length (m.enums.map (·.name)) m.interfaces =
            .ok interfacePlaces) ∧
        List.Forall₂ (fun p d => p.1.describe p.2 = .ok d) enumPlaces enums ∧
        List.Forall₂ (fun p d => p.1.describe
          (r.lookupWith (declaredNames enumPlaces interfacePlaces)) p.2 = .ok d)
          interfacePlaces interfaces ∧
        r.checkEnums enums = .ok () ∧ r.checkInterfaces interfaces = .ok () ∧
        l = report m enums interfaces ∧ r' = r.commit enums interfaces := by
  unfold load
  simp only [bind_eq_ok_iff, mapM_eq_ok_iff]
  constructor
  · rintro ⟨enumPlaces, hep, interfacePlaces, hip, enums, he, interfaces, hi, _, hce, _, hci, h⟩
    cases h
    exact ⟨enumPlaces, interfacePlaces, enums, interfaces, ⟨hep, hip⟩, he, hi, hce, hci, rfl, rfl⟩
  · rintro ⟨enumPlaces, interfacePlaces, enums, interfaces, ⟨hep, hip⟩, he, hi, hce, hci, rfl, rfl⟩
    exact ⟨enumPlaces, hep, interfacePlaces, hip, enums, he, interfaces, hi, (), hce, (), hci, rfl⟩

/-- A load succeeds with the descriptors that the registry admits. -/
theorem load_eq_ok_iff :
    r.load m = .ok (l, r') ↔
      ∃ enums interfaces, r.Admits m enums interfaces ∧ l = report m enums interfaces ∧
        r' = r.commit enums interfaces := by
  rw [load_passes_iff]
  simp only [reserve_iff, checkEnums_eq_ok_iff, checkInterfaces_eq_ok_iff]
  constructor
  · rintro ⟨enumPlaces, interfacePlaces, enums, interfaces, ⟨distinct, hep, hip⟩, he, hi, hce, hci,
      hl, hr⟩
    rw [lookupWith_declaredNames hep hip] at hi
    refine ⟨enums, interfaces, ⟨distinct, ?_, ?_, hce, hci⟩, hl, hr⟩
    · refine (forall₂_comp.mp ⟨enumPlaces, hep, he⟩).imp ?_
      rintro decl d ⟨⟨_, id⟩, ⟨rfl, placed⟩, described⟩
      obtain ⟨denotes, allowed⟩ := (EnumDecl.describe_eq_ok_iff _ _ _).mp described
      cases denotes.id_eq
      exact ⟨placed, denotes, allowed⟩
    · refine (forall₂_comp.mp ⟨interfacePlaces, hip, hi⟩).imp ?_
      rintro decl d ⟨⟨_, id⟩, ⟨rfl, placed⟩, described⟩
      obtain ⟨denotes, allowed⟩ := (InterfaceDecl.describe_eq_ok_iff _ _ _).mp described
      cases denotes.id_eq
      exact ⟨placed, denotes, allowed⟩
  · rintro ⟨enums, interfaces, ⟨distinct, he, hi, hce, hci⟩, hl, hr⟩
    obtain ⟨enumPlaces, hep, he⟩ := forall₂_comp.mpr <| he.imp fun decl d h =>
      show ∃ p : EnumDecl × EnumId, (p.1 = decl ∧ r.scope m decl.name = some (.enumeration p.2)) ∧
        p.1.describe p.2 = .ok d from
      ⟨(decl, d.id), ⟨rfl, h.1⟩, (EnumDecl.describe_eq_ok_iff _ _ _).mpr h.2⟩
    obtain ⟨interfacePlaces, hip, hi⟩ := forall₂_comp.mpr <| hi.imp fun decl d h =>
      show ∃ p : InterfaceDecl × InterfaceId,
        (p.1 = decl ∧ r.scope m decl.name = some (.interface p.2)) ∧
          p.1.describe (r.scope m) p.2 = .ok d from
      ⟨(decl, d.id), ⟨rfl, h.1⟩, (InterfaceDecl.describe_eq_ok_iff _ _ _).mpr h.2⟩
    refine ⟨enumPlaces, interfacePlaces, enums, interfaces, ⟨distinct, hep, hip⟩, he, ?_, hce, hci,
      hl, hr⟩
    rw [lookupWith_declaredNames hep hip]
    exact hi

/-! ### What is added -/

/-- A key points into its table. -/
def Holds (r : Registry) : TypeKey → Prop
  | .interface id => id.index < r.interfaces.length
  | .enumeration id => id.index < r.enums.length

/-- The enumerations whose places are behind the table. -/
def freshEnums (r : Registry) (enums : List EnumDescriptor) : List EnumDescriptor :=
  enums.filter fun d => r.enums.length ≤ d.id.index

def freshInterfaces (r : Registry) (interfaces : List InterfaceDescriptor) :
    List InterfaceDescriptor :=
  interfaces.filter fun d => r.interfaces.length ≤ d.id.index

section Fresh

variable {δ : Type} {nameOf : δ → String} {keyOf : δ → TypeKey} {key : Nat → TypeKey} {next : Nat}
  {names : List String} {ds : List δ}

/-- Of the descriptors of one kind, those behind the table are the ones with new names, in the order
of their numbers. -/
theorem fresh_eq_numbered {indexOf : δ → Nat} (names_eq : ds.map nameOf = names)
    (distinct : names.Nodup) (index : ∀ d n, keyOf d = key n → indexOf d = n)
    (registered : ∀ d ∈ ds, r.lookup? (nameOf d) = some (keyOf d) → indexOf d < next)
    (placed : ∀ d ∈ ds,
      (r.lookup? (nameOf d)).or ((r.numbered key next names).lookup (nameOf d)) =
        some (keyOf d)) :
    (ds.filter fun d => next ≤ indexOf d).map (fun d => (nameOf d, keyOf d)) =
      r.numbered key next names := by
  have new_iff : ∀ d ∈ ds, next ≤ indexOf d ↔ r.lookup? (nameOf d) = none := by
    intro d hd
    have hplaced := placed d hd
    cases found : r.lookup? (nameOf d) with
    | some old =>
      rw [found, Option.some_or] at hplaced
      have := registered d hd (found.trans hplaced)
      simp
      omega
    | none =>
      rw [found, Option.none_or] at hplaced
      obtain ⟨_, _, i, same⟩ := mem_numbered (mem_of_lookup hplaced)
      have := index d _ same
      simp
      omega
  refine eq_of_lookup ?_ ?_ ?_
  · rw [map_fst_numbered, unregistered, ← names_eq, List.filter_map, List.map_map]
    refine congrArg _ (List.filter_congr fun d hd => ?_)
    rw [Bool.eq_iff_iff]
    simp [new_iff d hd]
  · rw [map_fst_numbered]
    exact distinct.filter _
  · intro p hp
    obtain ⟨d, hd, rfl⟩ := List.mem_map.mp hp
    obtain ⟨hd, new⟩ := List.mem_filter.mp hd
    have hplaced := placed d hd
    rwa [(new_iff d hd).mp (of_decide_eq_true new), Option.none_or] at hplaced

theorem key_of_numbered
    (entries : ds.map (fun d => (nameOf d, keyOf d)) = r.numbered key next names)
    {i : Nat} {d : δ} (h : ds[i]? = some d) : keyOf d = key (next + i) := by
  have entry := congrArg (·[i]?) entries
  simp only [List.getElem?_map, h, Option.map_some, getElem?_numbered] at entry
  obtain ⟨_, _, same⟩ := Option.map_eq_some_iff.mp entry.symm
  exact (congrArg Prod.snd same).symm

theorem length_of_numbered
    (entries : ds.map (fun d => (nameOf d, keyOf d)) = r.numbered key next names) :
    ds.length = (r.unregistered names).length := by
  simpa [numbered] using congrArg List.length entries

end Fresh

namespace Admits

variable (admits : r.Admits m enums interfaces)

include admits

theorem enum_placed {d : EnumDescriptor} (member : d ∈ enums) :
    r.scope m d.name = some (.enumeration d.id) := by
  obtain ⟨decl, _, placed, denotes, _⟩ := mem_right_of_forall₂ admits.enums_described member
  rw [denotes.name_eq, placed]

theorem interface_placed {d : InterfaceDescriptor} (member : d ∈ interfaces) :
    r.scope m d.name = some (.interface d.id) := by
  obtain ⟨decl, _, placed, denotes, _⟩ := mem_right_of_forall₂ admits.interfaces_described member
  rw [denotes.name_eq, placed]

theorem enum_names : enums.map (·.name) = m.enums.map (·.name) :=
  map_eq_of_forall₂ admits.enums_described fun _ _ h => h.2.1.name_eq

theorem interface_names : interfaces.map (·.name) = m.interfaces.map (·.name) :=
  map_eq_of_forall₂ admits.interfaces_described fun _ _ h => h.2.1.name_eq

variable (indexed : ∀ name key, r.lookup? name = some key → r.Holds key)

include indexed

theorem freshEnums_entries :
    (r.freshEnums enums).map (fun d => (d.name, TypeKey.enumeration d.id)) =
      r.numbered (fun i => .enumeration ⟨i⟩) r.enums.length (m.enums.map (·.name)) := by
  obtain ⟨distinct, _, apart⟩ := List.nodup_append.mp admits.names_nodup
  refine fresh_eq_numbered admits.enum_names distinct ?_ (fun d _ found => indexed _ _ found) ?_
  · intro d n same
    rw [TypeKey.enumeration.inj same]
  · intro d hd
    rw [← admits.enum_placed hd, scope_of_not_mem_interfaces]
    · rfl
    · intro again
      exact apart _ (admits.enum_names ▸ List.mem_map.mpr ⟨d, hd, rfl⟩) _ again rfl

theorem freshInterfaces_entries :
    (r.freshInterfaces interfaces).map (fun d => (d.name, TypeKey.interface d.id)) =
      r.numbered (fun i => .interface ⟨i⟩) r.interfaces.length (m.interfaces.map (·.name)) := by
  obtain ⟨_, distinct, apart⟩ := List.nodup_append.mp admits.names_nodup
  refine fresh_eq_numbered admits.interface_names distinct ?_ (fun d _ found => indexed _ _ found)
    ?_
  · intro d n same
    rw [TypeKey.interface.inj same]
  · intro d hd
    rw [← admits.interface_placed hd, scope_of_not_mem_enums]
    · rfl
    · intro again
      exact apart _ again _ (admits.interface_names ▸ List.mem_map.mpr ⟨d, hd, rfl⟩) rfl

/-- The new enumerations are numbered on from the table. -/
theorem freshEnums_id {i : Nat} {d : EnumDescriptor} (h : (r.freshEnums enums)[i]? = some d) :
    d.id = ⟨r.enums.length + i⟩ :=
  TypeKey.enumeration.inj (key_of_numbered (admits.freshEnums_entries indexed) h)

/-- The new interfaces are numbered on from the table. -/
theorem freshInterfaces_id {i : Nat} {d : InterfaceDescriptor}
    (h : (r.freshInterfaces interfaces)[i]? = some d) : d.id = ⟨r.interfaces.length + i⟩ :=
  TypeKey.interface.inj (key_of_numbered (admits.freshInterfaces_entries indexed) h)

theorem commit_names : (r.commit enums interfaces).names = r.names ++ r.additions m := by
  rw [additions, ← admits.freshEnums_entries indexed, ← admits.freshInterfaces_entries indexed,
    ← List.append_assoc]
  rfl

/-- Once a model is registered, names stand for what they stood for in its scope. -/
theorem lookup?_commit : (r.commit enums interfaces).lookup? = r.scope m := by
  funext name
  rw [lookup?, admits.commit_names indexed, List.lookup_append]
  rfl

end Admits

/-! ### Attempts -/

/-- Loads a model into a registry: the outcome, and the registry that is left. After a refusal this
is the old one by the type of `load`, which has no other to give. -/
def register (r : Registry) (m : Model) : Except ModelError Loaded × Registry :=
  match r.load m with
  | .ok (loaded, after) => (.ok loaded, after)
  | .error cause => (.error cause, r)

/-- The registry after attempts to load models one after the other. -/
def loadAll (r : Registry) (ms : List Model) : Registry :=
  ms.foldl (fun r m => (r.register m).2) r

theorem register_eq_ok_iff : r.register m = (.ok l, r') ↔ r.load m = .ok (l, r') := by
  unfold register
  split <;> simp_all

/-- What every successful load keeps, every sequence of attempts keeps. -/
theorem loadAll_induction {P : Registry → Prop} (start : P r)
    (step : ∀ r m l r', P r → r.load m = .ok (l, r') → P r') (ms : List Model) :
    P (r.loadAll ms) := by
  induction ms generalizing r with
  | nil => exact start
  | cons m ms ih =>
    refine ih ?_
    change P (r.register m).2
    unfold register
    split
    · next loaded after h => exact step r m loaded after start h
    · exact start

end Registry

end ObjectBoundary
