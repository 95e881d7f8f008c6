import Mathlib.Data.List.Forall2

/-!
# Lists item by item

A list of declarations is turned into a list of descriptions one by one, and a name that has been
seen is refused. What comes out is a list that corresponds to the first one item by item. Lists of
named things are indexes: when their names are distinct, a lookup finds what is listed.
-/

namespace ObjectBoundary

variable {α β ε : Type}

/-! ### Correspondence -/

theorem mem_right_of_forall₂ {R : α → β → Prop} {xs : List α} {ys : List β}
    (related : List.Forall₂ R xs ys) {y : β} (member : y ∈ ys) : ∃ x ∈ xs, R x y := by
  induction related with
  | nil => cases member
  | @cons x z xs ys head _ ih =>
    rcases List.mem_cons.mp member with rfl | member
    · exact ⟨x, by simp, head⟩
    · obtain ⟨w, hw, hr⟩ := ih member
      exact ⟨w, by simp [hw], hr⟩

theorem mem_left_of_forall₂ {R : α → β → Prop} {xs : List α} {ys : List β}
    (related : List.Forall₂ R xs ys) {x : α} (member : x ∈ xs) : ∃ y ∈ ys, R x y :=
  mem_right_of_forall₂ (R := fun y x => R x y) related.flip member

theorem exists_forall₂ {R : α → β → Prop} {xs : List α} (each : ∀ x ∈ xs, ∃ y, R x y) :
    ∃ ys, List.Forall₂ R xs ys := by
  induction xs with
  | nil => exact ⟨[], .nil⟩
  | cons x xs ih =>
    obtain ⟨y, hy⟩ := each x (by simp)
    obtain ⟨ys, hys⟩ := ih fun x hx => each x (by simp [hx])
    exact ⟨y :: ys, .cons hy hys⟩

/-- What corresponding items share, the lists share in order. -/
theorem map_eq_of_forall₂ {γ : Type} {R : α → β → Prop} {f : α → γ} {g : β → γ} {xs : List α}
    {ys : List β} (related : List.Forall₂ R xs ys) (same : ∀ x y, R x y → g y = f x) :
    ys.map g = xs.map f := by
  induction related with
  | nil => rfl
  | cons head _ ih => rw [List.map_cons, List.map_cons, same _ _ head, ih]

theorem forall₂_congr {R S : α → β → Prop} {xs : List α} {ys : List β}
    (same : ∀ x ∈ xs, ∀ y, R x y ↔ S x y) : List.Forall₂ R xs ys ↔ List.Forall₂ S xs ys := by
  induction xs generalizing ys with
  | nil => simp
  | cons x xs ih =>
    simp only [List.forall₂_cons_left_iff, same x (by simp),
      ih fun z hz => same z (List.mem_cons_of_mem _ hz)]

/-- A condition on the items of the second list goes into the correspondence. -/
theorem forall₂_and_right {R : α → β → Prop} {P : β → Prop} {xs : List α} {ys : List β} :
    List.Forall₂ (fun x y => R x y ∧ P y) xs ys ↔ List.Forall₂ R xs ys ∧ ∀ y ∈ ys, P y := by
  constructor
  · intro related
    refine ⟨related.imp fun _ _ h => h.1, fun y hy => ?_⟩
    obtain ⟨x, _, _, h⟩ := mem_right_of_forall₂ related hy
    exact h
  · rintro ⟨related, each⟩
    induction related with
    | nil => exact .nil
    | @cons x y xs ys head _ ih =>
      exact .cons ⟨head, each y (by simp)⟩ (ih fun z hz => each z (by simp [hz]))

/-- Two correspondences through a list between make one. -/
theorem forall₂_comp {γ : Type} {R : α → β → Prop} {S : β → γ → Prop} {xs : List α}
    {zs : List γ} :
    (∃ ys, List.Forall₂ R xs ys ∧ List.Forall₂ S ys zs) ↔
      List.Forall₂ (fun x z => ∃ y, R x y ∧ S y z) xs zs := by
  constructor
  · rintro ⟨ys, first, second⟩
    induction first generalizing zs with
    | nil =>
      cases second
      exact .nil
    | cons hx _ ih =>
      cases second with
      | cons hz rest => exact .cons ⟨_, hx, hz⟩ (ih rest)
  · intro related
    induction related with
    | nil => exact ⟨[], .nil, .nil⟩
    | cons head _ ih =>
      obtain ⟨y, hx, hz⟩ := head
      obtain ⟨ys, first, second⟩ := ih
      exact ⟨y :: ys, .cons hx first, .cons hz second⟩

/-- Conditions that agree on corresponding items hold in both lists of some item or of none. -/
theorem any_eq_of_forall₂ {R : α → β → Prop} {p : α → Bool} {q : β → Bool} {xs : List α}
    {ys : List β} (related : List.Forall₂ R xs ys) (same : ∀ x y, R x y → p x = q y) :
    xs.any p = ys.any q := by
  induction related with
  | nil => rfl
  | cons head _ ih => rw [List.any_cons, List.any_cons, same _ _ head, ih]

/-- Lists that differ in one place correspond when what stands there does. -/
theorem forall₂_middle {R : α → α → Prop} (refl : ∀ x, R x x) (before after : List α) {x y : α}
    (middle : R x y) : List.Forall₂ R (before ++ x :: after) (before ++ y :: after) :=
  List.rel_append (List.forall₂_same.mpr fun z _ => refl z)
    (.cons middle (List.forall₂_same.mpr fun z _ => refl z))

/-! ### Steps that can fail -/

theorem bind_eq_ok_iff {x : Except ε α} {f : α → Except ε β} {b : β} :
    (x >>= f) = .ok b ↔ ∃ a, x = .ok a ∧ f a = .ok b := by
  cases x with
  | ok a =>
    constructor
    · intro h
      exact ⟨a, rfl, h⟩
    · rintro ⟨_, same, h⟩
      cases same
      exact h
  | error cause =>
    constructor
    · intro h
      cases h
    · rintro ⟨_, h, _⟩
      cases h

theorem map_eq_ok_iff {x : Except ε α} {f : α → β} {b : β} :
    x.map f = .ok b ↔ ∃ a, x = .ok a ∧ f a = b := by
  cases x with
  | ok a => simp [Except.map]
  | error cause => simp [Except.map]

theorem mapM_eq_ok_iff {f : α → Except ε β} {xs : List α} {ys : List β} :
    xs.mapM f = .ok ys ↔ List.Forall₂ (fun x y => f x = .ok y) xs ys := by
  induction xs generalizing ys with
  | nil => simp [pure, Except.pure, eq_comm]
  | cons x xs ih =>
    rw [List.mapM_cons, List.forall₂_cons_left_iff, bind_eq_ok_iff]
    refine exists_congr fun y => ?_
    rw [bind_eq_ok_iff]
    constructor
    · rintro ⟨hy, rest, hrest, h⟩
      cases h
      exact ⟨rest, hy, ih.mp hrest, rfl⟩
    · rintro ⟨rest, hy, hrest, rfl⟩
      exact ⟨hy, rest, ih.mpr hrest, rfl⟩

/-- Reading items one by one, with a name that was seen before refused. -/
theorem ok_iff_of_seen {name : α → String} {item : α → β → Prop}
    (read : List String → List α → Except ε (List β))
    (nil : ∀ seen, read seen [] = .ok [])
    (cons : ∀ seen x xs ys, read seen (x :: xs) = .ok ys ↔
      name x ∉ seen ∧ ∃ y rest, item x y ∧ read (name x :: seen) xs = .ok rest ∧ ys = y :: rest)
    (seen : List String) (xs : List α) (ys : List β) :
    read seen xs = .ok ys ↔
      (xs.map name).Nodup ∧ (∀ x ∈ xs, name x ∉ seen) ∧ List.Forall₂ item xs ys := by
  induction xs generalizing seen ys with
  | nil => simp [nil, eq_comm]
  | cons x xs ih =>
    rw [cons, List.forall₂_cons_left_iff, List.map_cons, List.nodup_cons]
    constructor
    · rintro ⟨fresh, y, rest, hy, hrest, rfl⟩
      obtain ⟨distinct, unseen, related⟩ := (ih _ _).mp hrest
      refine ⟨⟨?_, distinct⟩, ?_, y, rest, hy, related, rfl⟩
      · intro again
        obtain ⟨z, hz, same⟩ := List.mem_map.mp again
        exact unseen z hz (by simp [same])
      · intro z hz
        rcases List.mem_cons.mp hz with rfl | hz
        · exact fresh
        · exact fun h => unseen z hz (by simp [h])
    · rintro ⟨⟨single, distinct⟩, unseen, y, rest, hy, related, rfl⟩
      refine ⟨unseen x (by simp), y, rest, hy, (ih _ _).mpr ⟨distinct, ?_, related⟩, rfl⟩
      intro z hz again
      rcases List.mem_cons.mp again with same | again
      · exact single (List.mem_map.mpr ⟨z, hz, same⟩)
      · exact unseen z (by simp [hz]) again

/-! ### Indexes -/

theorem mem_of_lookup {name : String} {value : β} {index : List (String × β)}
    (found : index.lookup name = some value) : (name, value) ∈ index := by
  obtain ⟨before, after, rfl, _⟩ := List.lookup_eq_some_iff.mp found
  simp

theorem lookup_eq_none_iff_not_mem {name : String} {index : List (String × β)} :
    index.lookup name = none ↔ name ∉ index.map (·.1) := by
  rw [List.lookup_eq_none_iff]
  constructor
  · intro h member
    obtain ⟨p, hp, rfl⟩ := List.mem_map.mp member
    simpa using h p hp
  · intro h p hp
    simp only [bne_iff_ne, ne_eq]
    rintro rfl
    exact h (List.mem_map.mpr ⟨p, hp, rfl⟩)

/-- In an index of distinct names a lookup finds what is listed. -/
theorem lookup_eq_some_iff_mem {name : String} {value : β} {index : List (String × β)}
    (distinct : (index.map (·.1)).Nodup) :
    index.lookup name = some value ↔ (name, value) ∈ index := by
  refine ⟨mem_of_lookup, fun member => ?_⟩
  obtain ⟨before, after, rfl⟩ := List.append_of_mem member
  rw [List.lookup_eq_some_iff]
  refine ⟨before, after, rfl, fun p hp => ?_⟩
  rw [List.map_append, List.map_cons, List.nodup_append] at distinct
  simpa using (distinct.2.2 p.1 (List.mem_map.mpr ⟨p, hp, rfl⟩) name (by simp)).symm

/-- Two lists of the same distinct names are equal when a lookup in the second one finds what the
first one lists. -/
theorem eq_of_lookup {listed index : List (String × β)}
    (names : listed.map (·.1) = index.map (·.1)) (distinct : (index.map (·.1)).Nodup)
    (found : ∀ p ∈ listed, index.lookup p.1 = some p.2) : listed = index := by
  refine List.ext_getElem (by simpa using congrArg List.length names) fun i hi hj => ?_
  have hname : listed[i].1 = index[i].1 := by
    have := congrArg (·[i]?) names
    simpa [hi, hj] using this
  have hlisted : index.lookup index[i].1 = some index[i].2 :=
    (lookup_eq_some_iff_mem distinct).mpr (List.getElem_mem hj)
  have hvalue := found listed[i] (List.getElem_mem hi)
  rw [hname, hlisted] at hvalue
  exact Prod.ext hname (Option.some.inj hvalue).symm

end ObjectBoundary
