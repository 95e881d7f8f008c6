import ObjectBoundary.Proofs.Json.Lexemes
import ObjectBoundary.Proofs.Object.Typing
import ObjectBoundary.Proofs.Tasks.Members

/-!
# Texts without a NUL

A text that holds a NUL cannot be lent to a caller. A value is clean when no text in it holds one,
however deep it lies, and so is a heap in which all payloads are. Copying, converting and storing
clean values gives clean ones; what is generated is clean to begin with.
-/

namespace ObjectBoundary

/-- A text that can be lent. -/
def Text.Clean (s : String) : Prop := '\x00' ∉ s.toList

namespace Value

/-- Whether a value is a text or may hold one. -/
def isTextual : Value → Bool
  | .str _ | .array _ | .set _ | .dict _ => true
  | _ => false

/-- No text in the value holds a NUL. -/
inductive Clean : Value → Prop where
  | flat {value : Value} (flat : value.isTextual = false) : Clean value
  | str {s : String} (clean : Text.Clean s) : Clean (.str s)
  | array {items : List Value} (each : ∀ item ∈ items, Clean item) : Clean (.array items)
  | set {items : List Value} (each : ∀ item ∈ items, Clean item) : Clean (.set items)
  | dict {entries : List (Value × Value)} (keys : ∀ entry ∈ entries, Clean entry.1)
      (values : ∀ entry ∈ entries, Clean entry.2) : Clean (.dict entries)

end Value

def Entry.Clean (entry : Entry) : Prop := (entry.key.getD .void).Clean ∧ entry.value.Clean

def Collection.Clean (c : Collection) : Prop := ∀ entry ∈ c.entries, entry.Clean

def TextMap.Clean (map : TextMap) : Prop :=
  ∀ entry ∈ map.entries, Text.Clean entry.1 ∧ Text.Clean entry.2

structure Task.Clean (t : Task) : Prop where
  id : Text.Clean t.id
  title : Text.Clean t.title
  description : Text.Clean t.description
  createdAt : Text.Clean t.createdAt
  dueDate : Text.Clean t.dueDate
  tags : ∀ tag ∈ t.tags, Text.Clean tag
  metadata : t.metadata.Clean

/-- The texts of a project itself, apart from what it lists. -/
structure Project.Clean {τ : Type} (p : Project τ) : Prop where
  id : Text.Clean p.id
  name : Text.Clean p.name
  description : Text.Clean p.description

def Manager.Clean {π : Type} (m : Manager π) : Prop := m.settings.Clean

/-- All texts of a saved manager. -/
structure Archive.Clean (archive : Archive) : Prop where
  settings : archive.settings.Clean
  projects : ∀ p ∈ archive.projects, p.Clean
  tasks : ∀ p ∈ archive.projects, ∀ t ∈ p.tasks, t.Clean

def Payload.Clean : Payload → Prop
  | .text value => Text.Clean value
  | .collection c => c.Clean
  | .task t => t.Clean
  | .project p => p.Clean
  | .manager m => m.Clean
  | .scripted _ => True

abbrev Heap.Clean (heap : Heap) : Prop := heap.Every Payload.Clean

/-! ### Texts -/

namespace Text

variable {s t : String}

theorem clean_empty : Clean "" := by simp [Clean]

theorem Clean.append (first : Clean s) (second : Clean t) : Clean (s ++ t) := by
  unfold Clean
  rw [String.toList_append, List.mem_append]
  rintro (member | member)
  · exact first member
  · exact second member

/-- The texts that are admitted at the boundary are the clean ones. -/
theorem checkNul_eq_ok_iff {content : String} :
    checkNul s = .ok content ↔ Clean s ∧ content = s := by
  unfold checkNul nulPosition? Clean
  by_cases found : '\x00' ∈ s.toList
  · simp [found]
  · simp [found, eq_comm]

theorem clean_padLeft {cs : List Char} (width : Nat) (clean : '\x00' ∉ cs) :
    Clean (String.ofList (padLeft width cs)) := by
  simp [Clean, padLeft, clean]

theorem not_mem_toDigits (n : Nat) : '\x00' ∉ Nat.toDigits 10 n := fun member => by
  have digit := Json.isDigit_toDigits n _ member
  revert digit
  decide

theorem clean_paddedDecimal (width n : Nat) : Clean (paddedDecimal width n) :=
  clean_padLeft width (not_mem_toDigits n)

theorem clean_decimal (n : Nat) : Clean (decimal n) := by
  simpa [Clean, decimal] using not_mem_toDigits n

end Text

theorem Date.clean_text (d : Date) : Text.Clean d.text := by
  have hyphen : Text.Clean "-" := by simp [Text.Clean]
  have plus : Text.Clean "+" := by simp [Text.Clean]
  have year : Text.Clean (yearText d.year) := by
    unfold yearText
    split
    · exact Text.clean_paddedDecimal 4 _
    · split
      · exact hyphen.append (Text.clean_paddedDecimal 4 _)
      · exact plus.append (Text.clean_paddedDecimal 4 _)
  exact (((year.append hyphen).append (Text.clean_paddedDecimal 2 _)).append hyphen).append
    (Text.clean_paddedDecimal 2 _)

theorem Timestamp.clean_text (seconds : Int) : Text.Clean (Timestamp.text seconds) := by
  have mark : Text.Clean "T" := by simp [Text.Clean]
  have colon : Text.Clean ":" := by simp [Text.Clean]
  have zone : Text.Clean "Z" := by simp [Text.Clean]
  have time : Text.Clean (timeText (seconds % 86400).toNat) :=
    (((Text.clean_paddedDecimal 2 _).append colon).append
      (Text.clean_paddedDecimal 2 _)).append colon |>.append (Text.clean_paddedDecimal 2 _)
  exact (((Date.clean_text _).append mark).append time).append zone

namespace TextMap

variable {map : TextMap}

theorem clean_empty : empty.Clean := fun _ member => by cases member

theorem clean_putText {key value : String} {entries : List (String × String)}
    (hk : Text.Clean key) (hv : Text.Clean value)
    (each : ∀ entry ∈ entries, Text.Clean entry.1 ∧ Text.Clean entry.2) :
    ∀ entry ∈ putText key value entries, Text.Clean entry.1 ∧ Text.Clean entry.2 := by
  induction entries with
  | nil =>
    intro entry member
    rw [List.mem_singleton.mp member]
    exact ⟨hk, hv⟩
  | cons first rest ih =>
    have head := each first List.mem_cons_self
    have tail := fun entry member => each entry (List.mem_cons_of_mem first member)
    intro entry member
    unfold putText at member
    split at member
    · rcases List.mem_cons.mp member with rfl | member
      · exact ⟨hk, hv⟩
      · exact each entry member
    · split at member
      · rcases List.mem_cons.mp member with rfl | member
        · exact head
        · exact ih tail entry member
      · rcases List.mem_cons.mp member with rfl | member
        · exact ⟨head.1, hv⟩
        · exact tail entry member

theorem Clean.insert {key value : String} (clean : map.Clean) (hk : Text.Clean key)
    (hv : Text.Clean value) : (map.insert key value).Clean :=
  clean_putText hk hv clean

theorem Clean.extend {entries : List (String × String)} (clean : map.Clean)
    (each : ∀ entry ∈ entries, Text.Clean entry.1 ∧ Text.Clean entry.2) :
    (map.extend entries).Clean := by
  induction entries generalizing map with
  | nil => exact clean
  | cons entry entries ih =>
    have head := each entry List.mem_cons_self
    exact ih (clean.insert head.1 head.2) fun e member =>
      each e (List.mem_cons_of_mem entry member)

end TextMap

/-! ### Values -/

namespace Value

variable {value : Value}

theorem clean_str_iff {s : String} : (Value.str s).Clean ↔ Text.Clean s := by
  refine ⟨fun clean => ?_, .str⟩
  cases clean with
  | str clean => exact clean
  | flat flat => cases flat

theorem clean_array_iff {items : List Value} :
    (Value.array items).Clean ↔ ∀ item ∈ items, item.Clean := by
  refine ⟨fun clean => ?_, .array⟩
  cases clean with
  | array each => exact each
  | flat flat => cases flat

theorem clean_set_iff {items : List Value} :
    (Value.set items).Clean ↔ ∀ item ∈ items, item.Clean := by
  refine ⟨fun clean => ?_, .set⟩
  cases clean with
  | set each => exact each
  | flat flat => cases flat

theorem clean_dict_iff {entries : List (Value × Value)} :
    (Value.dict entries).Clean ↔ ∀ entry ∈ entries, entry.1.Clean ∧ entry.2.Clean := by
  refine ⟨fun clean => ?_, fun each => .dict (fun e he => (each e he).1) fun e he => (each e he).2⟩
  cases clean with
  | dict keys values => exact fun e he => ⟨keys e he, values e he⟩
  | flat flat => cases flat

theorem Clean.asText {s : String} (clean : value.Clean) (h : value.asText = .ok s) :
    Text.Clean s := by
  cases value <;> cases h
  exact clean_str_iff.mp clean

theorem mem_of_argument {arguments : List Value} {index : Nat}
    (h : argument arguments index = .ok value) : value ∈ arguments := by
  unfold argument at h
  split at h
  · next found =>
    cases h
    exact List.mem_of_getElem? found
  · cases h

theorem clean_texts {texts : List String} (each : ∀ text ∈ texts, Text.Clean text) :
    ∀ item ∈ texts.map Value.str, item.Clean := by
  intro item member
  obtain ⟨text, listed, rfl⟩ := List.mem_map.mp member
  exact .str (each text listed)

theorem clean_dictOf {map : TextMap} (clean : map.Clean) : (Task.dictOf map).Clean := by
  refine clean_dict_iff.mpr fun entry member => ?_
  obtain ⟨pair, listed, rfl⟩ := List.mem_map.mp member
  exact ⟨.str (clean pair listed).1, .str (clean pair listed).2⟩

end Value

/-- Conversion gives a text only where there was one. -/
theorem Registry.conform_clean {r : Registry} {ty : Ty} {value converted : Value}
    (h : r.conform ty value = .ok converted) (clean : value.Clean) : converted.Clean := by
  induction ty generalizing value converted with
  | void | bool | i32 | i64 | f32 | f64 | enumeration id | interface id =>
    cases hasType_of_conform h
    exact .flat rfl
  | string =>
    cases value <;> cases h
    exact clean
  | array elem ih =>
    cases value with
    | array items =>
      obtain ⟨found, all, rfl⟩ := map_eq_ok_iff.mp h
      refine .array fun made member => ?_
      obtain ⟨item, listed, same⟩ := mem_right_of_forall₂ (mapM_eq_ok_iff.mp all) member
      exact ih same (Value.clean_array_iff.mp clean item listed)
    | _ => cases h
  | set elem ih =>
    cases value with
    | set items =>
      obtain ⟨found, all, rfl⟩ := map_eq_ok_iff.mp h
      refine .set fun made member => ?_
      obtain ⟨item, listed, same⟩ :=
        mem_right_of_forall₂ (mapM_eq_ok_iff.mp all) (Value.mem_distinct.mp member)
      exact ih same (Value.clean_set_iff.mp clean item listed)
    | _ => cases h
  | dict key elem ihKey ihElem =>
    cases value with
    | dict entries =>
      obtain ⟨found, all, rfl⟩ := map_eq_ok_iff.mp h
      refine Value.clean_dict_iff.mpr fun made member => ?_
      obtain ⟨entry, listed, same⟩ := mem_right_of_forall₂ (mapM_eq_ok_iff.mp all) member
      obtain ⟨k, hk, same⟩ := bind_eq_ok_iff.mp same
      obtain ⟨v, hv, same⟩ := bind_eq_ok_iff.mp same
      cases same
      have both := Value.clean_dict_iff.mp clean entry listed
      exact ⟨ihKey hk both.1, ihElem hv both.2⟩
    | _ => cases h

/-! ### Collections -/

namespace Collection

variable {c c' : Collection} {key value : Value}

theorem clean_builder (kind : CollectionKind) : (builder kind).Clean := fun _ member => by
  cases member

theorem Clean.toValue (clean : c.Clean) : c.toValue.Clean := by
  have values : ∀ item ∈ c.entries.map (·.value), item.Clean := by
    intro item member
    obtain ⟨entry, listed, rfl⟩ := List.mem_map.mp member
    exact (clean entry listed).2
  unfold Collection.toValue
  split
  · exact .array values
  · exact .set values
  · refine Value.clean_dict_iff.mpr fun pair member => ?_
    obtain ⟨entry, listed, found⟩ := List.mem_filterMap.mp member
    obtain ⟨key, hkey, rfl⟩ := Option.map_eq_some_iff.mp found
    have both := clean entry listed
    unfold Entry.Clean at both
    rw [hkey] at both
    exact both

theorem clean_items {items : List Value} (each : ∀ item ∈ items, item.Clean) :
    ∀ entry ∈ items.map Entry.item, entry.Clean := by
  intro entry member
  obtain ⟨item, listed, rfl⟩ := List.mem_map.mp member
  exact ⟨.flat rfl, each item listed⟩

theorem entriesOf?_clean {kind : CollectionKind} {entries : List Entry}
    (h : entriesOf? value = some (kind, entries)) (clean : value.Clean) :
    ∀ entry ∈ entries, entry.Clean := by
  cases value with
  | array items =>
    cases h
    exact clean_items (Value.clean_array_iff.mp clean)
  | set items =>
    cases h
    rw [Value.copyMembers_nil]
    exact clean_items fun item member =>
      Value.clean_set_iff.mp clean item (Value.mem_distinct.mp member)
  | dict pairs =>
    cases h
    rw [copyPairs_eq_foldl]
    exact @forall_foldl_putEntry Value.Clean Value.Clean pairs []
      (Value.clean_dict_iff.mp clean) (by simp)
  | _ => cases h

theorem snapshot_clean {ty : Ty} (h : snapshot value ty = .ok c) (clean : value.Clean) :
    c.Clean :=
  entriesOf?_clean (snapshot_eq_ok_iff.mp h).1 clean

theorem untypedSnapshot_clean (h : untypedSnapshot value = .ok c) (clean : value.Clean) :
    c.Clean :=
  entriesOf?_clean (untypedSnapshot_eq_ok_iff.mp h).1 clean

theorem Clean.push (clean : c.Clean) (hv : value.Clean) (h : c.push value = .ok c') :
    c'.Clean := by
  obtain ⟨_, _, h⟩ := bind_eq_ok_iff.mp h
  cases h
  intro entry member
  rcases List.mem_append.mp member with member | member
  · exact clean entry member
  · rw [List.mem_singleton.mp member]
    exact ⟨.flat rfl, hv⟩

theorem Clean.insert {found : Bool × Collection} (clean : c.Clean) (hv : value.Clean)
    (h : c.insert value = .ok found) : found.2.Clean := by
  obtain ⟨_, _, h⟩ := bind_eq_ok_iff.mp h
  cases h
  intro entry member
  simp only [addMember] at member
  split at member
  · exact clean entry member
  · rcases List.mem_append.mp member with member | member
    · exact clean entry member
    · rw [List.mem_singleton.mp member]
      exact ⟨.flat rfl, hv⟩

theorem Clean.insertEntry {found : Bool × Collection} (clean : c.Clean) (hk : key.Clean)
    (hv : value.Clean) (h : c.insertEntry key value = .ok found) : found.2.Clean := by
  obtain ⟨_, _, h⟩ := bind_eq_ok_iff.mp h
  cases h
  exact forall_putEntry hk hv clean

end Collection

/-! ### Tasks, projects and managers -/

namespace Task

variable {t t' : Task} {name : String} {value : Value}

theorem Clean.property (clean : t.Clean) (h : t.property name = .ok value) : value.Clean := by
  unfold Task.property at h
  split at h
  · cases h
    exact .str clean.id
  · cases h
    exact .str clean.title
  · cases h
    exact .str clean.description
  · cases h
    exact .flat rfl
  · cases h
    exact .flat rfl
  · cases h
    exact .str clean.createdAt
  · cases h
    exact .str clean.dueDate
  · cases h
    exact .array (Value.clean_texts clean.tags)
  · cases h

theorem Clean.withProperty (clean : t.Clean) (hv : value.Clean)
    (h : t.withProperty name value = .ok t') : t'.Clean := by
  unfold Task.withProperty at h
  split at h
  · obtain ⟨text, read, h⟩ := bind_eq_ok_iff.mp h
    cases h
    exact { clean with description := hv.asText read }
  · obtain ⟨priority, _, h⟩ := bind_eq_ok_iff.mp h
    cases h
    exact { clean with }
  · obtain ⟨status, _, h⟩ := bind_eq_ok_iff.mp h
    cases h
    exact { clean with }
  · obtain ⟨text, read, h⟩ := bind_eq_ok_iff.mp h
    obtain ⟨due, checked, h⟩ := bind_eq_ok_iff.mp h
    cases h
    rw [(checkDueDate_eq_ok_iff.mp checked).1]
    exact { clean with dueDate := hv.asText read }
  · obtain ⟨items, read, h⟩ := bind_eq_ok_iff.mp h
    obtain ⟨texts, all, h⟩ := bind_eq_ok_iff.mp h
    cases h
    cases value <;> cases read
    refine { clean with tags := fun tag member => ?_ }
    obtain ⟨item, listed, read⟩ := mem_right_of_forall₂ (mapM_eq_ok_iff.mp all) member
    exact (Value.clean_array_iff.mp hv item listed).asText read
  · cases h

theorem id_withProperty (h : t.withProperty name value = .ok t') : t'.id = t.id := by
  unfold withProperty at h
  split at h
  case h_6 => cases h
  all_goals
    obtain ⟨_, _, h⟩ := bind_eq_ok_iff.mp h
    try obtain ⟨_, _, h⟩ := bind_eq_ok_iff.mp h
    cases h
    rfl

/-- A closing method changes the status only. -/
theorem closes (h : t.complete = .ok t' ∨ t.cancel = .ok t') :
    ∃ status, t' = { t with status } := by
  rcases h with h | h
  · unfold complete at h
    split at h
    · cases h
    · cases h
      exact ⟨_, rfl⟩
  · unfold cancel at h
    split at h
    · cases h
    · cases h
      exact ⟨_, rfl⟩

/-- A method keeps the id and the due date of a task, and what it stores and gives is clean. -/
theorem invoke_keeps {today : Date} {arguments : List Value}
    (h : t.invoke today name arguments = .ok (value, t')) :
    t'.id = t.id ∧ t'.dueDate = t.dueDate ∧
      (t.Clean → (∀ argument ∈ arguments, argument.Clean) → value.Clean ∧ t'.Clean) := by
  unfold invoke at h
  split at h
  · obtain ⟨completed, done, h⟩ := bind_eq_ok_iff.mp h
    obtain ⟨status, rfl⟩ := closes (.inl done)
    cases h
    exact ⟨rfl, rfl, fun clean _ => ⟨.flat rfl, { clean with }⟩⟩
  · obtain ⟨cancelled, done, h⟩ := bind_eq_ok_iff.mp h
    obtain ⟨status, rfl⟩ := closes (.inr done)
    cases h
    exact ⟨rfl, rfl, fun clean _ => ⟨.flat rfl, { clean with }⟩⟩
  · cases h
    exact ⟨rfl, rfl, fun clean _ => ⟨.flat rfl, clean⟩⟩
  · cases h
    exact ⟨rfl, rfl, fun clean _ => ⟨Value.clean_dictOf clean.metadata, clean⟩⟩
  · obtain ⟨first, found, h⟩ := bind_eq_ok_iff.mp h
    obtain ⟨key, read, h⟩ := bind_eq_ok_iff.mp h
    obtain ⟨second, found', h⟩ := bind_eq_ok_iff.mp h
    obtain ⟨content, read', h⟩ := bind_eq_ok_iff.mp h
    cases h
    refine ⟨rfl, rfl, fun clean given => ⟨.flat rfl, { clean with metadata := ?_ }⟩⟩
    exact clean.metadata.insert ((given first (Value.mem_of_argument found)).asText read)
      ((given second (Value.mem_of_argument found')).asText read')
  · cases h

end Task

namespace Project

variable {τ : Type} {p p' : Project τ} {name : String} {value : Value}

theorem Clean.property (clean : p.Clean) (h : p.property name = .ok value) : value.Clean := by
  unfold Project.property at h
  split at h
  · cases h
    exact .str clean.id
  · cases h
    exact .str clean.name
  · cases h
    exact .str clean.description
  · cases h
    exact .flat rfl
  · cases h

/-- Setting a property keeps the id of a project, and it stores what is clean. -/
theorem withProperty_keeps (h : p.withProperty name value = .ok p') :
    p'.id = p.id ∧ (p.Clean → value.Clean → p'.Clean) := by
  unfold withProperty at h
  split at h
  · obtain ⟨text, read, h⟩ := bind_eq_ok_iff.mp h
    cases h
    exact ⟨rfl, fun clean hv => { clean with name := hv.asText read }⟩
  · obtain ⟨text, read, h⟩ := bind_eq_ok_iff.mp h
    cases h
    exact ⟨rfl, fun clean hv => { clean with description := hv.asText read }⟩
  · obtain ⟨active, _, h⟩ := bind_eq_ok_iff.mp h
    cases h
    exact ⟨rfl, fun clean _ => { clean with }⟩
  · cases h

theorem clean_objectArray {α : Type} (items : List (Ref × α)) : (objectArray items).Clean := by
  refine .array fun item member => ?_
  obtain ⟨pair, _, rfl⟩ := List.mem_map.mp member
  exact .flat rfl

end Project

theorem Manager.clean_textEntries {value : Value} {entries : List (String × String)}
    (h : textEntries value = .ok entries) (clean : value.Clean) :
    ∀ entry ∈ entries, Text.Clean entry.1 ∧ Text.Clean entry.2 := by
  obtain ⟨pairs, read, all⟩ := bind_eq_ok_iff.mp h
  cases value <;> cases read
  intro entry member
  obtain ⟨pair, listed, read⟩ := mem_right_of_forall₂ (mapM_eq_ok_iff.mp all) member
  obtain ⟨key, hk, read⟩ := bind_eq_ok_iff.mp read
  obtain ⟨content, hv, read⟩ := bind_eq_ok_iff.mp read
  cases read
  have both := Value.clean_dict_iff.mp clean pair listed
  exact ⟨both.1.asText hk, both.2.asText hv⟩

/-! ### What a clean heap holds -/

namespace Heap

variable {heap : Heap} {m : Manager Ref} {p : Project Ref}

theorem payloadAt_of_mem_tasksOf {ref : Ref} {t : Task} (h : (ref, t) ∈ heap.tasksOf p) :
    heap.payloadAt ref.number = some (.task t) := by
  obtain ⟨r, _, found⟩ := List.mem_filterMap.mp h
  obtain ⟨t', ht, same⟩ := Option.map_eq_some_iff.mp found
  cases same
  exact task?_eq_some_iff.mp ht

theorem Clean.tasksOf (clean : heap.Clean) {ref : Ref} {t : Task}
    (h : (ref, t) ∈ heap.tasksOf p) : t.Clean :=
  clean _ _ (payloadAt_of_mem_tasksOf h)

theorem Clean.allTags (clean : heap.Clean) : ∀ tag ∈ heap.allTags m, Text.Clean tag := by
  have tags : ∀ tag ∈ (heap.allTasks m).flatMap (·.2.tags), Text.Clean tag := by
    intro tag member
    obtain ⟨⟨ref, t⟩, listed, member⟩ := List.mem_flatMap.mp member
    obtain ⟨⟨_, q⟩, _, listed⟩ := List.mem_flatMap.mp listed
    exact (clean.tasksOf listed).tags tag member
  have all : (TextMap.ofList (((heap.allTasks m).flatMap (·.2.tags)).map (·, ""))).Clean := by
    refine TextMap.clean_empty.extend fun entry member => ?_
    obtain ⟨tag, listed, rfl⟩ := List.mem_map.mp member
    exact ⟨tags tag listed, Text.clean_empty⟩
  intro tag member
  obtain ⟨entry, listed, rfl⟩ := List.mem_map.mp member
  exact (all entry listed).1

end Heap

end ObjectBoundary
