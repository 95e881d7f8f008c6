import ObjectBoundary.Proofs.Model.Types

/-!
# The places of declared names

A model is resolved in a scope: a name that is registered keeps its place, and the new names of each
kind get the places behind those that are taken, in the order of their declaration. Reservation
gives every declared name the place that it has in the scope, and the names of a model are looked up
there.
-/

namespace ObjectBoundary

namespace Model

def names (m : Model) : List String := m.enums.map (·.name) ++ m.interfaces.map (·.name)

end Model

namespace Registry

def unregistered (r : Registry) (names : List String) : List String :=
  names.filter fun name => (r.lookup? name).isNone

/-- The names of one kind that are not registered, with consecutive places. -/
def numbered (r : Registry) (key : Nat → TypeKey) (next : Nat) (names : List String) :
    List (String × TypeKey) :=
  (r.unregistered names).mapIdx fun i name => (name, key (next + i))

/-- The names that a model adds to the registry, with the places that they get. -/
def additions (r : Registry) (m : Model) : List (String × TypeKey) :=
  r.numbered (fun i => .enumeration ⟨i⟩) r.enums.length (m.enums.map (·.name)) ++
    r.numbered (fun i => .interface ⟨i⟩) r.interfaces.length (m.interfaces.map (·.name))

/-- What names stand for once a model is registered. -/
def scope (r : Registry) (m : Model) (name : String) : Option TypeKey :=
  (r.lookup? name).or ((r.additions m).lookup name)

variable {r : Registry} {m : Model} {name : String} {key : Nat → TypeKey} {next : Nat}
  {names : List String}

/-! ### Numbering -/

theorem numbered_cons_of_some {found : TypeKey} (h : r.lookup? name = some found) :
    r.numbered key next (name :: names) = r.numbered key next names := by
  simp [numbered, unregistered, h]

theorem numbered_cons_of_none (h : r.lookup? name = none) :
    r.numbered key next (name :: names) = (name, key next) :: r.numbered key (next + 1) names := by
  simp [numbered, unregistered, h, List.mapIdx_cons, Nat.add_assoc, Nat.add_comm 1]

theorem map_fst_numbered :
    (r.numbered key next names).map (·.1) = r.unregistered names := by
  apply List.ext_getElem?
  intro i
  simp [numbered, Function.comp_def]

theorem getElem?_numbered (i : Nat) :
    (r.numbered key next names)[i]? =
      (r.unregistered names)[i]?.map fun name => (name, key (next + i)) := by
  simp [numbered]

theorem mem_numbered_of_getElem? {i : Nat} (h : (r.unregistered names)[i]? = some name) :
    (name, key (next + i)) ∈ r.numbered key next names := by
  refine List.mem_of_getElem? (i := i) ?_
  rw [getElem?_numbered, h, Option.map_some]

theorem lookup_numbered_eq_none (h : name ∉ names) :
    (r.numbered key next names).lookup name = none := by
  rw [lookup_eq_none_iff_not_mem, map_fst_numbered]
  exact fun member => h (List.mem_filter.mp member).1

theorem mem_numbered {found : TypeKey} (h : (name, found) ∈ r.numbered key next names) :
    name ∈ names ∧ r.lookup? name = none ∧ ∃ i, found = key (next + i) := by
  obtain ⟨i, hi⟩ := List.getElem?_of_mem h
  rw [getElem?_numbered] at hi
  obtain ⟨n, hn, same⟩ := Option.map_eq_some_iff.mp hi
  cases same
  have member := List.mem_filter.mp (List.mem_of_getElem? hn)
  exact ⟨member.1, by simpa using member.2, i, rfl⟩

/-! ### Reservation -/

section Reservation

variable {δ ι : Type} {nameOf : δ → String} {toKey : ι → TypeKey} {place : Nat → ι}

/-- A declared name keeps its place or gets the next one. -/
def Reserved (r : Registry) (toKey : ι → TypeKey) (place : Nat → ι) (name : String) (next : Nat)
    (id : ι) (after : Nat) : Prop :=
  r.lookup? name = some (toKey id) ∧ after = next ∨
    r.lookup? name = none ∧ id = place next ∧ after = next + 1

theorem exists_reserved_iff (injective : Function.Injective toKey) (id : ι) :
    (∃ after, r.Reserved toKey place name next id after) ↔
      (r.lookup? name).or ((r.numbered (toKey ∘ place) next (name :: names)).lookup name) =
        some (toKey id) := by
  cases h : r.lookup? name with
  | some found => simp [Reserved, h]
  | none =>
    rw [numbered_cons_of_none h, List.lookup_cons_self]
    simp [Reserved, h, injective.eq_iff, eq_comm]

/-- The other names are numbered behind a declared one as if they stood alone. -/
theorem Reserved.lookup_numbered {id : ι} {after : Nat} {other : String}
    (reserved : r.Reserved toKey place name next id after) (ne : other ≠ name) :
    (r.numbered (toKey ∘ place) next (name :: names)).lookup other =
      (r.numbered (toKey ∘ place) after names).lookup other := by
  rcases reserved with ⟨found, rfl⟩ | ⟨new, _, rfl⟩
  · rw [numbered_cons_of_some found]
  · rw [numbered_cons_of_none new, List.lookup_cons, beq_eq_false_iff_ne.mpr ne]

/-- Reserving places one by one is numbering the new names. -/
theorem reserve_eq_ok_iff (injective : Function.Injective toKey)
    (found : String → Nat → Except ModelError (ι × Nat))
    (found_iff : ∀ name next id after, found name next = .ok (id, after) ↔
      r.Reserved toKey place name next id after)
    (reserve : Nat → List String → List δ → Except ModelError (List (δ × ι)))
    (nil : ∀ next taken, reserve next taken [] = .ok [])
    (cons : ∀ next taken d ds, reserve next taken (d :: ds) =
      found (nameOf d) next >>= fun p =>
        if taken.contains (nameOf d) then .error (.duplicateType (nameOf d))
        else (reserve p.2 (nameOf d :: taken) ds).map ((d, p.1) :: ·))
    (next : Nat) (taken : List String) (ds : List δ) (ps : List (δ × ι)) :
    reserve next taken ds = .ok ps ↔
      (ds.map nameOf).Nodup ∧ (∀ d ∈ ds, nameOf d ∉ taken) ∧
        List.Forall₂ (fun d p => p.1 = d ∧
          (r.lookup? (nameOf d)).or
            ((r.numbered (toKey ∘ place) next (ds.map nameOf)).lookup (nameOf d)) =
              some (toKey p.2)) ds ps := by
  induction ds generalizing next taken ps with
  | nil => simp [nil, eq_comm]
  | cons d ds ih =>
    rw [cons, bind_eq_ok_iff, Prod.exists, List.forall₂_cons_left_iff, List.map_cons,
      List.nodup_cons]
    simp only [found_iff]
    constructor
    · rintro ⟨id, after, reserved, h⟩
      split at h
      · cases h
      next fresh =>
      rw [List.contains_eq_mem, decide_eq_true_iff] at fresh
      obtain ⟨rest, hrest, rfl⟩ := map_eq_ok_iff.mp h
      obtain ⟨distinct, untaken, related⟩ := (ih _ _ _).mp hrest
      have apart : ∀ e ∈ ds, nameOf e ≠ nameOf d := fun e he same => untaken e he (by simp [same])
      refine ⟨⟨?_, distinct⟩, ?_, (d, id), rest,
        ⟨rfl, (exists_reserved_iff injective id).mp ⟨after, reserved⟩⟩, ?_, rfl⟩
      · intro again
        obtain ⟨e, he, same⟩ := List.mem_map.mp again
        exact apart e he same
      · intro e he
        rcases List.mem_cons.mp he with rfl | he
        · exact fresh
        · exact fun h => untaken e he (by simp [h])
      · refine (forall₂_congr fun e he p => ?_).mpr related
        rw [reserved.lookup_numbered (apart e he)]
    · rintro ⟨⟨single, distinct⟩, untaken, ⟨e, id⟩, rest, ⟨same, found⟩, related, rfl⟩
      obtain rfl : d = e := same.symm
      obtain ⟨after, reserved⟩ := (exists_reserved_iff injective id).mpr found
      have apart : ∀ e ∈ ds, nameOf e ≠ nameOf d :=
        fun e he same => single (List.mem_map.mpr ⟨e, he, same⟩)
      refine ⟨id, after, reserved, ?_⟩
      rw [if_neg (by simpa using untaken d (by simp)), map_eq_ok_iff]
      refine ⟨rest, (ih _ _ _).mpr ⟨distinct, ?_, ?_⟩, rfl⟩
      · intro e he again
        rcases List.mem_cons.mp again with same | again
        · exact apart e he same
        · exact untaken e (by simp [he]) again
      · refine (forall₂_congr fun e he p => ?_).mpr related
        rw [reserved.lookup_numbered (apart e he)]

end Reservation

theorem reserveEnum_eq_ok_iff (id : EnumId) (after : Nat) :
    r.reserveEnum name next = .ok (id, after) ↔
      r.Reserved TypeKey.enumeration EnumId.mk name next id after := by
  unfold reserveEnum Reserved
  cases r.lookup? name with
  | none => simp [eq_comm]
  | some found => cases found <;> simp [eq_comm]

theorem reserveInterface_eq_ok_iff (id : InterfaceId) (after : Nat) :
    r.reserveInterface name next = .ok (id, after) ↔
      r.Reserved TypeKey.interface InterfaceId.mk name next id after := by
  unfold reserveInterface Reserved
  cases r.lookup? name with
  | none => simp [eq_comm]
  | some found => cases found <;> simp [eq_comm]

theorem reserveEnums_eq_ok_iff (next : Nat) (taken : List String) (ds : List EnumDecl)
    (ps : List (EnumDecl × EnumId)) :
    r.reserveEnums next taken ds = .ok ps ↔
      (ds.map (·.name)).Nodup ∧ (∀ d ∈ ds, d.name ∉ taken) ∧
        List.Forall₂ (fun d p => p.1 = d ∧
          (r.lookup? d.name).or ((r.numbered (.enumeration ∘ .mk) next (ds.map (·.name))).lookup
            d.name) = some (.enumeration p.2)) ds ps :=
  reserve_eq_ok_iff (fun _ _ => TypeKey.enumeration.inj) r.reserveEnum
    (fun _ _ => reserveEnum_eq_ok_iff) r.reserveEnums (fun _ _ => rfl) (fun _ _ _ _ => rfl)
    next taken ds ps

theorem reserveInterfaces_eq_ok_iff (next : Nat) (taken : List String) (ds : List InterfaceDecl)
    (ps : List (InterfaceDecl × InterfaceId)) :
    r.reserveInterfaces next taken ds = .ok ps ↔
      (ds.map (·.name)).Nodup ∧ (∀ d ∈ ds, d.name ∉ taken) ∧
        List.Forall₂ (fun d p => p.1 = d ∧
          (r.lookup? d.name).or ((r.numbered (.interface ∘ .mk) next (ds.map (·.name))).lookup
            d.name) = some (.interface p.2)) ds ps :=
  reserve_eq_ok_iff (fun _ _ => TypeKey.interface.inj) r.reserveInterface
    (fun _ _ => reserveInterface_eq_ok_iff) r.reserveInterfaces (fun _ _ => rfl)
    (fun _ _ _ _ => rfl) next taken ds ps

/-- A declared enumeration has its place among the enumerations. -/
theorem scope_of_not_mem_interfaces (h : name ∉ m.interfaces.map (·.name)) :
    r.scope m name =
      (r.lookup? name).or ((r.numbered (.enumeration ∘ .mk) r.enums.length
        (m.enums.map (·.name))).lookup name) := by
  rw [scope, additions, List.lookup_append, lookup_numbered_eq_none h, Option.or_none]
  rfl

/-- A declared interface has its place among the interfaces. -/
theorem scope_of_not_mem_enums (h : name ∉ m.enums.map (·.name)) :
    r.scope m name =
      (r.lookup? name).or ((r.numbered (.interface ∘ .mk) r.interfaces.length
        (m.interfaces.map (·.name))).lookup name) := by
  rw [scope, additions, List.lookup_append, lookup_numbered_eq_none h, Option.none_or]
  rfl

/-- The declared enumerations and interfaces get the places that they have in the scope. -/
theorem reserve_iff (r : Registry) (m : Model) (enums : List (EnumDecl × EnumId))
    (interfaces : List (InterfaceDecl × InterfaceId)) :
    r.reserveEnums r.enums.length [] m.enums = .ok enums ∧
        r.reserveInterfaces r.interfaces.length (m.enums.map (·.name)) m.interfaces =
          .ok interfaces ↔
      m.names.Nodup ∧
        List.Forall₂ (fun d p => p.1 = d ∧ r.scope m d.name = some (.enumeration p.2))
          m.enums enums ∧
        List.Forall₂ (fun d p => p.1 = d ∧ r.scope m d.name = some (.interface p.2))
          m.interfaces interfaces := by
  rw [reserveEnums_eq_ok_iff, reserveInterfaces_eq_ok_iff]
  have apart_iff : (∀ d ∈ m.interfaces, d.name ∉ m.enums.map (·.name)) ↔
      ∀ a ∈ m.enums.map (·.name), ∀ b ∈ m.interfaces.map (·.name), a ≠ b := by
    grind
  rw [Model.names, List.nodup_append, ← apart_iff]
  have enums_iff (apart : ∀ d ∈ m.interfaces, d.name ∉ m.enums.map (·.name)) :
      List.Forall₂ (fun d p => p.1 = d ∧ r.scope m d.name = some (.enumeration p.2)) m.enums enums ↔
        List.Forall₂ (fun d p => p.1 = d ∧ (r.lookup? d.name).or ((r.numbered (.enumeration ∘ .mk)
          r.enums.length (m.enums.map (·.name))).lookup d.name) = some (.enumeration p.2))
          m.enums enums := by
    refine forall₂_congr fun d hd p => ?_
    rw [scope_of_not_mem_interfaces]
    grind
  have interfaces_iff (apart : ∀ d ∈ m.interfaces, d.name ∉ m.enums.map (·.name)) :
      List.Forall₂ (fun d p => p.1 = d ∧ r.scope m d.name = some (.interface p.2))
        m.interfaces interfaces ↔
        List.Forall₂ (fun d p => p.1 = d ∧ (r.lookup? d.name).or ((r.numbered (.interface ∘ .mk)
          r.interfaces.length (m.interfaces.map (·.name))).lookup d.name) = some (.interface p.2))
          m.interfaces interfaces := by
    refine forall₂_congr fun d hd p => ?_
    rw [scope_of_not_mem_enums (apart d hd)]
  constructor
  · rintro ⟨⟨distinct, _, enumPlaces⟩, distinct', apart, interfacePlaces⟩
    exact ⟨⟨distinct, distinct', apart⟩, (enums_iff apart).mpr enumPlaces,
      (interfaces_iff apart).mpr interfacePlaces⟩
  · rintro ⟨⟨distinct, distinct', apart⟩, enumPlaces, interfacePlaces⟩
    exact ⟨⟨distinct, by simp, (enums_iff apart).mp enumPlaces⟩, distinct', apart,
      (interfaces_iff apart).mp interfacePlaces⟩

/-- A model is resolved in its scope. -/
theorem lookupWith_declaredNames {enums : List (EnumDecl × EnumId)}
    {interfaces : List (InterfaceDecl × InterfaceId)}
    (enumPlaces : List.Forall₂ (fun d p => p.1 = d ∧ r.scope m d.name = some (.enumeration p.2))
      m.enums enums)
    (interfacePlaces : List.Forall₂ (fun d p => p.1 = d ∧ r.scope m d.name = some (.interface p.2))
      m.interfaces interfaces) :
    r.lookupWith (declaredNames enums interfaces) = r.scope m := by
  have hnames : (declaredNames enums interfaces).map (·.1) = m.names := by
    simp only [declaredNames, List.map_append, List.map_map, Function.comp_def, Model.names]
    congr 1
    · exact map_eq_of_forall₂ enumPlaces fun d p h => by rw [h.1]
    · exact map_eq_of_forall₂ interfacePlaces fun d p h => by rw [h.1]
  have placed : ∀ p ∈ declaredNames enums interfaces, r.scope m p.1 = some p.2 := by
    intro p hp
    simp only [declaredNames, List.mem_append, List.mem_map] at hp
    rcases hp with ⟨q, hq, rfl⟩ | ⟨q, hq, rfl⟩
    · obtain ⟨d, _, rfl, h⟩ := mem_right_of_forall₂ enumPlaces hq
      exact h
    · obtain ⟨d, _, rfl, h⟩ := mem_right_of_forall₂ interfacePlaces hq
      exact h
  funext name
  unfold lookupWith
  cases declared : (declaredNames enums interfaces).lookup name with
  | some key => exact (placed _ (mem_of_lookup declared)).symm
  | none =>
    rw [lookup_eq_none_iff_not_mem, hnames] at declared
    have unlisted : (r.additions m).lookup name = none := by
      have apart : name ∉ m.enums.map (·.name) ∧ name ∉ m.interfaces.map (·.name) := by
        simpa [Model.names] using declared
      rw [additions, List.lookup_append, lookup_numbered_eq_none apart.1,
        lookup_numbered_eq_none apart.2, Option.or_none]
    rw [scope, unlisted, Option.none_or, Option.or_none]

end Registry

end ObjectBoundary
