import ObjectBoundary.Proofs.Json.Records
import ObjectBoundary.Tasks.Record

/-!
# Reading back saved tasks

The text of a file gives back the content that was saved, whatever texts stand in it and however
many tasks, tags, entries and projects there are. Every part is taken apart again by itself: the
fields of a record by their names, a list item by item, and the entries of a map in the order of
their keys, in which they were written.
-/

namespace ObjectBoundary

open Json

/-! ### Maps -/

/-- A key beyond all others goes to the end. -/
theorem putText_greatest {key value : String} {entries : List (String × String)}
    (greatest : ∀ e ∈ entries, e.1 < key) :
    putText key value entries = entries ++ [(key, value)] := by
  induction entries with
  | nil => rfl
  | cons first others ih =>
    have below := greatest first List.mem_cons_self
    have others := ih fun e he => greatest e (List.mem_cons_of_mem first he)
    simp [putText, String.lt_asymm below, below, others]

namespace TextMap

theorem extend_of_sorted (map : TextMap) {entries : List (String × String)}
    (sorted : (map.entries ++ entries).Pairwise fun a b => a.1 < b.1) :
    (map.extend entries).entries = map.entries ++ entries := by
  induction entries generalizing map with
  | nil => simp [extend]
  | cons e entries ih =>
    have greatest : ∀ other ∈ map.entries, other.1 < e.1 := fun other h =>
      (List.pairwise_append.mp sorted).2.2 other h e List.mem_cons_self
    have put : (map.insert e.1 e.2).entries = map.entries ++ [e] := putText_greatest greatest
    have next := ih (map.insert e.1 e.2) (by rwa [put, List.append_assoc])
    rw [put, List.append_assoc] at next
    exact next

theorem ofList_entries (map : TextMap) : ofList map.entries = map := by
  have same : (ofList map.entries).entries = map.entries := extend_of_sorted empty map.sorted
  generalize ofList map.entries = other at same
  cases map
  cases other
  cases same
  rfl

@[simp] theorem ofJson_toJson (map : TextMap) : ofJson map.toJson = .ok map := by
  have entries := asEntries_ofFields asText_ofText map.entries
  rw [ofJson, toJson, entries, Except.map, ofList_entries]

theorem spelled_toJson (map : TextMap) : Spelled map.toJson := by
  refine spelled_ofFields fun field h => ?_
  obtain ⟨entry, _, rfl⟩ := List.mem_map.mp h
  exact spelled_ofText entry.2

end TextMap

/-! ### Tasks, projects and managers -/

@[simp] theorem Priority.asVariant_name (p : Priority) :
    asVariant Priority.named (.ofText p.name) = .ok p := by
  cases p <;> rfl

@[simp] theorem Status.asVariant_name (s : Status) :
    asVariant Status.named (.ofText s.name) = .ok s := by
  cases s <;> rfl

namespace Task

@[simp] theorem ofJson_toJson (t : Task) : ofJson t.toJson = .ok t := by
  have tags : asList asText (.array (t.tags.map .ofText)) = .ok t.tags := asList_map asText_ofText _
  rw [ofJson, toJson, record_ofFields]
  · simp [tags, bind, Except.bind, pure, Except.pure]
  · rfl
  · decide

theorem spelled_toJson (t : Task) : Spelled t.toJson := by
  refine spelled_ofFields ?_
  simp [spelled_ofText, spelled_array_map spelled_ofText, t.metadata.spelled_toJson]

end Task

namespace Project

@[simp] theorem ofJson_toJson (p : Project Task) : ofJson p.toJson = .ok p := by
  have tasks : asList Task.ofJson (.array (p.tasks.map Task.toJson)) = .ok p.tasks :=
    asList_map Task.ofJson_toJson _
  have active : asBool (.bool p.active) = .ok p.active := rfl
  rw [ofJson, toJson, record_ofFields]
  · simp [tasks, active, bind, Except.bind, pure, Except.pure]
  · rfl
  · decide

theorem spelled_toJson (p : Project Task) : Spelled p.toJson := by
  refine spelled_ofFields ?_
  simp [spelled_ofText, Spelled.bool, spelled_array_map Task.spelled_toJson]

end Project

namespace Manager

theorem ofJson_recordJson (version : UInt32) (m : Archive) :
    ofJson (recordJson version m) = .ok (version.toNat, m) := by
  have within : (version.toNat : Int) ≤ 0xffffffff :=
    Int.ofNat_le.mpr (Nat.le_of_lt_succ version.toNat_lt)
  have version : asInteger 0 0xffffffff (.integer version.toNat) = .ok (version.toNat : Int) := by
    simp [asInteger, within]
  have projects : asList Project.ofJson (.array (m.projects.map Project.toJson)) = .ok m.projects :=
    asList_map Project.ofJson_toJson _
  rw [ofJson, recordJson, record_ofFields]
  · simp [version, projects, bind, Except.bind, pure, Except.pure]
  · rfl
  · decide

theorem spelled_recordJson (version : UInt32) (m : Archive) : Spelled (recordJson version m) := by
  refine spelled_ofFields ?_
  simp [Spelled.integer, m.settings.spelled_toJson, spelled_array_map Project.spelled_toJson]

/-- The text of a record gives back the record, whatever its version is. -/
theorem decode_recordJson (version : UInt32) (m : Archive) :
    Json.decode ofJson (recordJson version m).indented = .ok (version.toNat, m) := by
  rw [decode_indented _ (spelled_recordJson version m), ofJson_recordJson]

/-- The text of a file gives back the content that it was written from. -/
theorem parse_print (path : String) (m : Archive) : parse path (print m) = .ok m := by
  rw [parse, print, toJson, decode_recordJson]
  rfl

end Manager

end ObjectBoundary
