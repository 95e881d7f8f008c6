import ObjectBoundary.Json.Decode
import ObjectBoundary.Proofs.Json.Reading
import ObjectBoundary.Proofs.Model.Items

/-!
# Records in JSON

What was written as a record, a list or a map is taken apart again: the fields of a record by their
names, a list item by item, and the entries of a map in the order in which they were written.
-/

namespace ObjectBoundary.Json

@[simp] theorem asText_ofText (s : String) : asText (.ofText s) = .ok s := rfl

@[simp] theorem required_some {α : Type} (name : String) (decode : Json → Decoded α)
    (value : Json) : required name decode (some value) = decode value := rfl

@[simp] theorem optional_some {α : Type} (default : α) (decode : Json → Decoded α) (value : Json) :
    optional default decode (some value) = decode value := rfl

theorem spelled_ofText (s : String) : Spelled (.ofText s) := .text (some s)

theorem spelled_ofFields {fields : List (String × Json)}
    (each : ∀ field ∈ fields, Spelled field.2) : Spelled (.ofFields fields) := by
  refine .object fun field h => ?_
  obtain ⟨⟨name, value⟩, member, rfl⟩ := List.mem_map.mp h
  exact each (name, value) member

theorem spelled_array_map {α : Type} {encode : α → Json} (each : ∀ a, Spelled (encode a))
    (items : List α) : Spelled (.array (items.map encode)) := by
  refine .array fun item h => ?_
  obtain ⟨a, _, rfl⟩ := List.mem_map.mp h
  exact each a

/-- A field that stands once is found by its name. -/
theorem single_ofFields {fields : List (String × Json)} (nodup : (fields.map (·.1)).Nodup)
    {field : String × Json} (member : field ∈ fields) :
    single field.1 (fields.map fun (name, value) => (some name, value)) = .ok (some field.2) := by
  have found : valuesOf field.1 (fields.map fun (name, value) => (some name, value)) =
      [field.2] := by
    induction fields with
    | nil => cases member
    | cons first others ih =>
      obtain ⟨absent, nodup⟩ := List.nodup_cons.mp nodup
      rcases List.mem_cons.mp member with rfl | member
      · have none : valuesOf field.1 (others.map fun (name, value) => (some name, value)) = [] := by
          refine List.filterMap_eq_nil_iff.mpr fun pair h => ?_
          obtain ⟨other, hother, rfl⟩ := List.mem_map.mp h
          have differs : other.1 ≠ field.1 :=
            fun same => absent (List.mem_map.mpr ⟨other, hother, same⟩)
          simp [differs]
        simpa [valuesOf] using none
      · have differs : first.1 ≠ field.1 :=
          fun same => absent (List.mem_map.mpr ⟨field, member, same.symm⟩)
        simpa [valuesOf, differs] using ih nodup member
  rw [single, found]

/-- A record that was written with its fields gives their values. -/
theorem record_ofFields {what : String} {names : List String} {fields : List (String × Json)}
    (names_eq : fields.map (·.1) = names) (nodup : names.Nodup) :
    record what names (.ofFields fields) = .ok (fields.map fun field => some field.2) := by
  subst names
  have named : (fields.map fun (name, value) => (some name, value)).all (·.1.isSome) = true := by
    simp
  rw [ofFields, record, if_pos named, mapM_eq_ok_iff, List.forall₂_map_left_iff,
    List.forall₂_map_right_iff, List.forall₂_same]
  exact fun field member => single_ofFields nodup member

theorem asList_map {α : Type} {encode : α → Json} {decode : Json → Decoded α}
    (each : ∀ a, decode (encode a) = .ok a) (items : List α) :
    asList decode (.array (items.map encode)) = .ok items := by
  rw [asList, mapM_eq_ok_iff, List.forall₂_map_left_iff, List.forall₂_same]
  exact fun a _ => each a

theorem asEntries_ofFields {α : Type} {encode : α → Json} {decode : Json → Decoded α}
    (each : ∀ a, decode (encode a) = .ok a) (entries : List (String × α)) :
    asEntries decode (.ofFields (entries.map fun (key, value) => (key, encode value))) =
      .ok entries := by
  rw [ofFields, asEntries, mapM_eq_ok_iff, List.map_map, List.forall₂_map_left_iff,
    List.forall₂_same]
  intro entry _
  simp [each, Except.map]

end ObjectBoundary.Json
