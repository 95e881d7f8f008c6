import ObjectBoundary.Proofs.Marshal.RoundTrip
import ObjectBoundary.Proofs.Tasks.Members

/-!
# Updates of properties

What setting a property of a task or a project can do, as a relation. From it come the laws of
setting and reading: what was set is read, to set it once more changes nothing, and every other
property stays as it is.
-/

namespace ObjectBoundary

namespace Value

theorem asText_eq_ok_iff {value : Value} {text : String} :
    value.asText = .ok text ↔ value = .str text := by
  cases value <;> simp [asText, unexpected]

theorem asBool_eq_ok_iff {value : Value} {b : Bool} : value.asBool = .ok b ↔ value = .bool b := by
  cases value <;> simp [asBool, unexpected]

theorem asArray_eq_ok_iff {value : Value} {items : List Value} :
    value.asArray = .ok items ↔ value = .array items := by
  cases value <;> simp [asArray, unexpected]

theorem asEnumerator_eq_ok_iff {value : Value} {n : Int64} :
    value.asEnumerator = .ok n ↔ value = .enumerator n := by
  cases value <;> simp [asEnumerator, unexpected]

theorem mapM_asText_eq_ok_iff {items : List Value} {texts : List String} :
    items.mapM asText = .ok texts ↔ items = texts.map .str := by
  rw [mapM_eq_ok_iff, ← List.forall₂_eq_eq_eq, List.forall₂_map_right_iff]
  simp only [asText_eq_ok_iff]

end Value

theorem Priority.ofValue_eq_ok_iff {value : Value} {p : Priority} :
    Priority.ofValue value = .ok p ↔ value = p.toValue := by
  rw [ofValue, bind_eq_ok_iff]
  simp only [Value.asEnumerator_eq_ok_iff]
  constructor
  · rintro ⟨n, rfl, h⟩
    unfold ofNumber? at h
    split_ifs at h with zero one two three <;> cases h
    all_goals
      subst n
      rfl
  · rintro rfl
    exact ⟨_, rfl, by cases p <;> rfl⟩

theorem Status.ofValue_eq_ok_iff {value : Value} {s : Status} :
    Status.ofValue value = .ok s ↔ value = s.toValue := by
  rw [ofValue, bind_eq_ok_iff]
  simp only [Value.asEnumerator_eq_ok_iff]
  constructor
  · rintro ⟨n, rfl, h⟩
    unfold ofNumber? at h
    split_ifs at h with zero one two three <;> cases h
    all_goals
      subst n
      rfl
  · rintro rfl
    exact ⟨_, rfl, by cases s <;> rfl⟩

/-! ### Tasks -/

namespace Task

/-- What setting a property to a value makes of a task. -/
inductive Updated (t : Task) : String → Value → Task → Prop where
  | description (text : String) :
      Updated t "description" (.str text) { t with description := text }
  | priority (p : Priority) : Updated t "priority" p.toValue { t with priority := p }
  | status (s : Status) : Updated t "status" s.toValue { t with status := s }
  | dueDate {text : String} (valid : IsDueDate text) :
      Updated t "due_date" (.str text) { t with dueDate := text }
  | tags (texts : List String) :
      Updated t "tags" (.array (texts.map .str)) { t with tags := texts }

variable {t t' : Task} {name : String} {value : Value}

theorem withProperty_eq_ok_iff : t.withProperty name value = .ok t' ↔ t.Updated name value t' := by
  constructor
  · intro h
    unfold withProperty at h
    split at h
    · obtain ⟨text, given, h⟩ := bind_eq_ok_iff.mp h
      cases h
      rw [Value.asText_eq_ok_iff.mp given]
      exact .description text
    · obtain ⟨p, given, h⟩ := bind_eq_ok_iff.mp h
      cases h
      rw [Priority.ofValue_eq_ok_iff.mp given]
      exact .priority p
    · obtain ⟨s, given, h⟩ := bind_eq_ok_iff.mp h
      cases h
      rw [Status.ofValue_eq_ok_iff.mp given]
      exact .status s
    · obtain ⟨text, given, h⟩ := bind_eq_ok_iff.mp h
      obtain ⟨due, checked, h⟩ := bind_eq_ok_iff.mp h
      cases h
      obtain ⟨rfl, valid⟩ := checkDueDate_eq_ok_iff.mp checked
      rw [Value.asText_eq_ok_iff.mp given]
      exact .dueDate valid
    · obtain ⟨items, given, h⟩ := bind_eq_ok_iff.mp h
      obtain ⟨texts, read, h⟩ := bind_eq_ok_iff.mp h
      cases h
      rw [Value.asArray_eq_ok_iff.mp given, Value.mapM_asText_eq_ok_iff.mp read]
      exact .tags texts
    · cases h
  · intro updated
    cases updated with
    | description text => rfl
    | priority p =>
      exact bind_eq_ok_iff.mpr ⟨p, Priority.ofValue_eq_ok_iff.mpr rfl, rfl⟩
    | status s =>
      exact bind_eq_ok_iff.mpr ⟨s, Status.ofValue_eq_ok_iff.mpr rfl, rfl⟩
    | @dueDate text valid =>
      exact bind_eq_ok_iff.mpr ⟨text, rfl, bind_eq_ok_iff.mpr
        ⟨text, checkDueDate_eq_ok_iff.mpr ⟨rfl, valid⟩, rfl⟩⟩
    | tags texts =>
      exact bind_eq_ok_iff.mpr ⟨_, rfl, bind_eq_ok_iff.mpr
        ⟨texts, Value.mapM_asText_eq_ok_iff.mpr rfl, rfl⟩⟩

namespace Updated

theorem property_eq (updated : t.Updated name value t') : t'.property name = .ok value := by
  cases updated <;> rfl

theorem property_ne (updated : t.Updated name value t') {other : String} (ne : other ≠ name) :
    t'.property other = t.property other := by
  cases updated
  all_goals
    unfold property
    split <;> first | rfl | exact absurd rfl ne

theorem metadata_eq (updated : t.Updated name value t') : t'.metadata = t.metadata := by
  cases updated <;> rfl

theorem again (updated : t.Updated name value t') : t'.Updated name value t' := by
  cases updated with
  | description text => exact .description text
  | priority p => exact .priority p
  | status s => exact .status s
  | dueDate valid => exact .dueDate valid
  | tags texts => exact .tags texts

end Updated

end Task

/-! ### Projects -/

namespace Project

variable {τ : Type}

inductive Updated (p : Project τ) : String → Value → Project τ → Prop where
  | name (text : String) : Updated p "name" (.str text) { p with name := text }
  | description (text : String) :
      Updated p "description" (.str text) { p with description := text }
  | active (b : Bool) : Updated p "active" (.bool b) { p with active := b }

variable {p p' : Project τ} {name : String} {value : Value}

theorem withProperty_eq_ok_iff : p.withProperty name value = .ok p' ↔ p.Updated name value p' := by
  constructor
  · intro h
    unfold withProperty at h
    split at h
    · obtain ⟨text, given, h⟩ := bind_eq_ok_iff.mp h
      cases h
      rw [Value.asText_eq_ok_iff.mp given]
      exact .name text
    · obtain ⟨text, given, h⟩ := bind_eq_ok_iff.mp h
      cases h
      rw [Value.asText_eq_ok_iff.mp given]
      exact .description text
    · obtain ⟨b, given, h⟩ := bind_eq_ok_iff.mp h
      cases h
      rw [Value.asBool_eq_ok_iff.mp given]
      exact .active b
    · cases h
  · intro updated
    cases updated <;> rfl

namespace Updated

theorem property_eq (updated : p.Updated name value p') : p'.property name = .ok value := by
  cases updated <;> rfl

theorem property_ne (updated : p.Updated name value p') {other : String} (ne : other ≠ name) :
    p'.property other = p.property other := by
  cases updated
  all_goals
    unfold property
    split <;> first | rfl | exact absurd rfl ne

theorem tasks_eq (updated : p.Updated name value p') : p'.tasks = p.tasks := by
  cases updated <;> rfl

theorem again (updated : p.Updated name value p') : p'.Updated name value p' := by
  cases updated with
  | name text => exact .name text
  | description text => exact .description text
  | active b => exact .active b

end Updated

end Project

/-! ### Payloads -/

namespace Payload

/-- The value of a property of a task or a project. -/
inductive Reads (name : String) (value : Value) : Payload → Prop where
  | task {t : Task} (read : t.property name = .ok value) : Reads name value (.task t)
  | project {p : Project Ref} (read : p.property name = .ok value) : Reads name value (.project p)

/-- What setting a property to a value makes of a task or a project. -/
inductive Updated (name : String) (value : Value) : Payload → Payload → Prop where
  | task {t t' : Task} (updated : t.Updated name value t') :
      Updated name value (.task t) (.task t')
  | project {p p' : Project Ref} (updated : p.Updated name value p') :
      Updated name value (.project p) (.project p')

/-- Two tasks with the same metadata, or two projects with the same tasks, that have the same
properties apart from one. -/
inductive SameBut (name : String) : Payload → Payload → Prop where
  | task {t t' : Task} (others : ∀ other ≠ name, t'.property other = t.property other)
      (metadata : t'.metadata = t.metadata) : SameBut name (.task t) (.task t')
  | project {p p' : Project Ref} (others : ∀ other ≠ name, p'.property other = p.property other)
      (tasks : p'.tasks = p.tasks) : SameBut name (.project p) (.project p')

variable {name : String} {value : Value} {p q : Payload}

namespace Updated

theorem reads (updated : p.Updated name value q) : q.Reads name value := by
  cases updated with
  | task updated => exact .task updated.property_eq
  | project updated => exact .project updated.property_eq

theorem again (updated : p.Updated name value q) : q.Updated name value q := by
  cases updated with
  | task updated => exact .task updated.again
  | project updated => exact .project updated.again

theorem sameBut (updated : p.Updated name value q) : p.SameBut name q := by
  cases updated with
  | task updated => exact .task (fun _ ne => updated.property_ne ne) updated.metadata_eq
  | project updated => exact .project (fun _ ne => updated.property_ne ne) updated.tasks_eq

theorem unique {q' : Payload} (first : p.Updated name value q) (second : p.Updated name value q') :
    q' = q := by
  cases first with
  | task updated =>
    cases second with
    | task updated' =>
      have same := (Task.withProperty_eq_ok_iff.mpr updated').symm.trans
        (Task.withProperty_eq_ok_iff.mpr updated)
      rw [Except.ok.inj same]
  | project updated =>
    cases second with
    | project updated' =>
      have same := (Project.withProperty_eq_ok_iff.mpr updated').symm.trans
        (Project.withProperty_eq_ok_iff.mpr updated)
      rw [Except.ok.inj same]

theorem refs_eq (updated : p.Updated name value q) : q.refs = p.refs := by
  cases updated with
  | task _ => rfl
  | project updated => exact updated.tasks_eq

theorem fits {tag : Tag} (updated : p.Updated name value q) (fits : p.Fits tag) : q.Fits tag := by
  cases updated with
  | task _ => exact fits
  | project updated => exact ⟨fits.1, updated.tasks_eq ▸ fits.2⟩

end Updated

end Payload

namespace Op

open State

variable {s : State} {ref : Ref} {name : String} {value : Value} {p : Payload}

theorem run_readProperty_of_reads (held : s.heap.payloadAt ref.number = some p)
    (reads : p.Reads name value) : s.run (readProperty ref name) = (.ok value, s) := by
  cases reads with
  | task read =>
    simp only [readProperty, run_bind, run_payload held, read]
    rfl
  | project read =>
    simp only [readProperty, run_bind, run_payload held, read]
    rfl

/-- A property is set exactly when there is an update, and the object then has the new content. -/
theorem writeProperty_exact (held : s.heap.payloadAt ref.number = some p) {tag : Tag}
    (fits : p.Fits tag) :
    (writeProperty ref name value).Meets s
      (fun _ t => ∃ q, p.Updated name value q ∧ t = s.withPayload ref q)
      fun _ _ => ∀ q, ¬ p.Updated name value q := by
  refine meets_run (run_payload held) ?_
  cases p with
  | task t =>
    cases written : t.withProperty name value with
    | ok t' =>
      have updated := Task.withProperty_eq_ok_iff.mp written
      simp only [written]
      exact meets_run (run_pure s t') (meets_of_run (run_replace s ref (.task t'))
        ⟨_, .task updated, rfl⟩)
    | error cause =>
      simp only [written]
      refine meets_fail_bind fun q updated => ?_
      cases updated with
      | task updated => cases written.symm.trans (Task.withProperty_eq_ok_iff.mpr updated)
  | project q =>
    cases written : q.withProperty name value with
    | ok q' =>
      have updated := Project.withProperty_eq_ok_iff.mp written
      simp only [written]
      exact meets_run (run_pure s q') (meets_of_run (run_replace s ref (.project q'))
        ⟨_, .project updated, rfl⟩)
    | error cause =>
      simp only [written]
      refine meets_fail_bind fun q updated => ?_
      cases updated with
      | project updated => cases written.symm.trans (Project.withProperty_eq_ok_iff.mpr updated)
  | manager m => exact meets_fail fun q updated => by cases updated
  | scripted content => cases fits
  | text text => exact meets_get (meets_fail fun q updated => by cases updated)
  | collection c => exact meets_get (meets_fail fun q updated => by cases updated)

end Op

end ObjectBoundary
