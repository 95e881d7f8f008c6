import Mathlib.Data.List.Induction
import Mathlib.Data.List.Nodup
import ObjectBoundary.Proofs.Marshal.Refs
import ObjectBoundary.Proofs.Model.Items

/-!
# Values of declared types

What it means for a value to have a type, at every depth. Conversion to a type gives values of that
type and leaves such values as they are. It does not depend on repeated members of a set: a set may
be freed of them before its members are converted or after.
-/

namespace ObjectBoundary

namespace Value

mutual

theorem same_iff_eq (a b : Value) : a.same b = true ↔ a = b := by
  cases a with
  | array items => cases b <;> simp [same, sameItems_iff_eq items]
  | set items => cases b <;> simp [same, sameItems_iff_eq items]
  | dict entries => cases b <;> simp [same, sameEntries_iff_eq entries]
  | void | bool | i32 | i64 | f32 | f64 | str | enumerator | object =>
    cases b <;> simp [same]

theorem sameItems_iff_eq (as bs : List Value) : sameItems as bs = true ↔ as = bs := by
  cases as with
  | nil => cases bs <;> simp [sameItems]
  | cons a as =>
    cases bs with
    | nil => simp [sameItems]
    | cons b bs => simp [sameItems, same_iff_eq a b, sameItems_iff_eq as bs]

theorem sameEntries_iff_eq (as bs : List (Value × Value)) :
    sameEntries as bs = true ↔ as = bs := by
  match as, bs with
  | [], [] | [], _ :: _ | _ :: _, [] => simp [sameEntries]
  | (k, v) :: as, (l, w) :: bs =>
    simp [sameEntries, same_iff_eq k l, same_iff_eq v w, sameEntries_iff_eq as bs]

end

/-! ### Each value once -/

section Distinct

variable {items : List Value} {value : Value}

theorem any_same_iff : items.any (·.same value) = true ↔ value ∈ items := by
  simp [same_iff_eq]

theorem addDistinct_of_mem (h : value ∈ items) : addDistinct items value = items :=
  if_pos (any_same_iff.mpr h)

theorem addDistinct_of_not_mem (h : value ∉ items) : addDistinct items value = items ++ [value] :=
  if_neg (mt any_same_iff.mp h)

theorem distinct_concat (items : List Value) (value : Value) :
    distinct (items ++ [value]) = addDistinct (distinct items) value := by
  simp [distinct]

theorem mem_distinct : value ∈ distinct items ↔ value ∈ items := by
  refine ⟨mem_of_mem_distinct, fun member => ?_⟩
  induction items using List.reverseRecOn with
  | nil => cases member
  | append_singleton items last ih =>
    rw [distinct_concat]
    by_cases known : last ∈ distinct items
    · rw [addDistinct_of_mem known]
      rcases List.mem_append.mp member with earlier | final
      · exact ih earlier
      · rwa [List.mem_singleton.mp final]
    · rw [addDistinct_of_not_mem known]
      rcases List.mem_append.mp member with earlier | final
      · exact List.mem_append_left _ (ih earlier)
      · exact List.mem_append_right _ final

theorem nodup_distinct (items : List Value) : (distinct items).Nodup := by
  induction items using List.reverseRecOn with
  | nil => exact List.nodup_nil
  | append_singleton items last ih =>
    rw [distinct_concat]
    by_cases known : last ∈ distinct items
    · rwa [addDistinct_of_mem known]
    · rw [addDistinct_of_not_mem known]
      exact List.nodup_append.mpr ⟨ih, by simp, fun a ha b hb => by
        rw [List.mem_singleton.mp hb]
        rintro rfl
        exact known ha⟩

theorem distinct_of_nodup (once : items.Nodup) : distinct items = items := by
  induction items using List.reverseRecOn with
  | nil => rfl
  | append_singleton items last ih =>
    obtain ⟨rest, _, apart⟩ := List.nodup_append.mp once
    have new : last ∉ items := fun member => apart last member last (by simp) rfl
    rw [distinct_concat, ih rest, addDistinct_of_not_mem new]

/-- Adding to a list what is new in another one keeps the first occurrences that are new. -/
theorem foldl_addDistinct_eq (items start : List Value) :
    items.foldl addDistinct start =
      start ++ (items.filter fun item => !start.any (·.same item)).eraseDupsBy same := by
  induction items generalizing start with
  | nil => simp [List.eraseDupsBy, List.eraseDupsBy.loop]
  | cons item items ih =>
    by_cases known : start.any (·.same item)
    · rw [List.foldl_cons, addDistinct, if_pos known, ih, List.filter_cons_of_neg (by simp [known])]
    · have later : (items.filter fun other => !(start ++ [item]).any (·.same other)) =
          (items.filter fun other => !start.any (·.same other)).filter fun other =>
            decide (other.same item = false) := by
        rw [List.filter_filter]
        refine List.filter_congr fun other _ => ?_
        have symm : item.same other = other.same item := by
          rw [Bool.eq_iff_iff, same_iff_eq, same_iff_eq, eq_comm]
        simp [symm, Bool.and_comm]
      rw [List.foldl_cons, addDistinct, if_neg known, ih,
        List.filter_cons_of_pos (by simpa using known), List.eraseDupsBy_cons, later,
        List.append_assoc, List.singleton_append]

/-- What is left of a list are its first occurrences, in their order. -/
theorem distinct_eq (items : List Value) : distinct items = items.eraseDupsBy same := by
  have whole := foldl_addDistinct_eq items []
  simpa [distinct] using whole

theorem mapM_concat {ε : Type} {f : Value → Except ε Value} (items : List Value) (last : Value) :
    (items ++ [last]).mapM f = (do return (← items.mapM f) ++ [← f last]) := by
  rw [List.mapM_append, List.mapM_cons, List.mapM_nil]
  cases items.mapM f with
  | error e => rfl
  | ok found => cases f last <;> rfl

/-- Freeing a list of repetitions and converting its items come to the same in either order, and the
first item that cannot be converted is the same one. -/
theorem map_distinct_mapM {ε : Type} (f : Value → Except ε Value) (items : List Value) :
    ((distinct items).mapM f).map distinct = (items.mapM f).map distinct := by
  induction items using List.reverseRecOn with
  | nil => rfl
  | append_singleton items last ih =>
    rw [distinct_concat, mapM_concat]
    by_cases known : last ∈ distinct items
    · rw [addDistinct_of_mem known, ih]
      cases all : items.mapM f with
      | error e => rfl
      | ok found =>
        obtain ⟨made, member, same⟩ :=
          mem_left_of_forall₂ (mapM_eq_ok_iff.mp all) (mem_distinct.mp known)
        have twice : distinct (found ++ [made]) = distinct found := by
          rw [distinct_concat, addDistinct_of_mem (mem_distinct.mpr member)]
        rw [same]
        exact congrArg Except.ok twice.symm
    · rw [addDistinct_of_not_mem known, mapM_concat]
      cases some : (distinct items).mapM f with
      | error e =>
        rw [some] at ih
        cases all : items.mapM f with
        | error e' =>
          rw [all] at ih
          cases ih
          rfl
        | ok found =>
          rw [all] at ih
          cases ih
      | ok fewer =>
        rw [some] at ih
        cases all : items.mapM f with
        | error e' =>
          rw [all] at ih
          cases ih
        | ok found =>
          rw [all] at ih
          have same : distinct fewer = distinct found := Except.ok.inj ih
          cases f last with
          | error e' => rfl
          | ok made =>
            have ends : distinct (fewer ++ [made]) = distinct (found ++ [made]) := by
              rw [distinct_concat, distinct_concat, same]
            exact congrArg Except.ok ends

/-- Values that are added to a set one after the other leave the distinct ones. -/
theorem foldl_addMember (items start : List Value) :
    items.foldl addMember (start.map .item) = (items.foldl addDistinct start).map .item := by
  induction items generalizing start with
  | nil => rfl
  | cons item items ih =>
    have same : addMember (start.map .item) item = (addDistinct start item).map .item := by
      unfold addMember addDistinct
      rw [List.any_map]
      change (if start.any (·.same item) then _ else _) = _
      split
      · rfl
      · simp
    rw [List.foldl_cons, List.foldl_cons, same, ih]

/-- A copy of a set holds its distinct members. -/
theorem copyMembers_nil (items : List Value) :
    Collection.copyMembers [] items = (distinct items).map .item := by
  rw [Collection.copyMembers_eq_foldl]
  exact foldl_addMember items []

end Distinct

end Value

/-! ### Types of values -/

namespace Registry

/-- A value has a type at every depth. The members of a set are there once. -/
inductive HasType (r : Registry) : Ty → Value → Prop where
  | void : HasType r .void .void
  | bool (b : Bool) : HasType r .bool (.bool b)
  | i32 (n : Int32) : HasType r .i32 (.i32 n)
  | i64 (n : Int64) : HasType r .i64 (.i64 n)
  | f32 (pattern : UInt32) : HasType r .f32 (.f32 pattern)
  | f64 (pattern : UInt64) : HasType r .f64 (.f64 pattern)
  | str (s : String) : HasType r .string (.str s)
  | enumerator {id : EnumId} {d : EnumDescriptor} {n : Int64} (found : r.enum? id = some d)
      (declared : d.contains n) : HasType r (.enumeration id) (.enumerator n)
  | object {id : InterfaceId} {ref : Ref} (tag_eq : ref.tag = .interface id) :
      HasType r (.interface id) (.object ref)
  | array {elem : Ty} {items : List Value} (each : ∀ item ∈ items, HasType r elem item) :
      HasType r (.array elem) (.array items)
  | set {elem : Ty} {items : List Value} (each : ∀ item ∈ items, HasType r elem item)
      (once : items.Nodup) : HasType r (.set elem) (.set items)
  | dict {key elem : Ty} {entries : List (Value × Value)}
      (keys : ∀ entry ∈ entries, HasType r key entry.1)
      (values : ∀ entry ∈ entries, HasType r elem entry.2) :
      HasType r (.dict key elem) (.dict entries)

variable {r : Registry}

theorem checkEnumerator_eq_ok_iff {id : EnumId} {n m : Int64} :
    r.checkEnumerator id n = .ok m ↔ m = n ∧ ∃ d, r.enum? id = some d ∧ d.contains n := by
  unfold checkEnumerator
  cases found : r.enum? id with
  | none => simp
  | some d =>
    by_cases declared : d.contains n
    · have ok_eq : (Except.ok n : Except Fault Int64) = .ok m ↔ m = n :=
        ⟨fun h => (Except.ok.inj h).symm, fun h => congrArg _ h.symm⟩
      simp [declared, ok_eq]
    · simp [declared]

theorem hasType_checked {id : EnumId} {n : Int64} {value : Value}
    (h : (r.checkEnumerator id n).map .enumerator = .ok value) :
    r.HasType (.enumeration id) value := by
  obtain ⟨m, checked, rfl⟩ := map_eq_ok_iff.mp h
  obtain ⟨rfl, d, found, declared⟩ := checkEnumerator_eq_ok_iff.mp checked
  exact .enumerator found declared

/-- What conversion gives has the type. -/
theorem hasType_of_conform {ty : Ty} {value converted : Value}
    (h : r.conform ty value = .ok converted) : r.HasType ty converted := by
  induction ty generalizing value converted with
  | void =>
    cases h
    exact .void
  | bool =>
    cases value <;> cases h
    exact .bool _
  | i32 =>
    cases value with
    | i32 n =>
      cases h
      exact .i32 n
    | i64 n =>
      simp only [conform] at h
      split at h
      · cases h
        exact .i32 _
      · cases h
    | _ => cases h
  | i64 =>
    cases value <;> cases h
    all_goals exact .i64 _
  | f32 =>
    cases value <;> cases h
    exact .f32 _
  | f64 =>
    cases value <;> cases h
    all_goals exact .f64 _
  | string =>
    cases value <;> cases h
    exact .str _
  | enumeration id =>
    cases value with
    | i32 n | i64 n | enumerator n => exact hasType_checked h
    | _ => cases h
  | interface id =>
    cases value with
    | object ref =>
      simp only [conform] at h
      split at h
      · next tag_eq =>
        cases h
        exact .object tag_eq
      · cases h
    | _ => cases h
  | array elem ih =>
    cases value with
    | array items =>
      obtain ⟨found, all, rfl⟩ := map_eq_ok_iff.mp h
      refine .array fun made member => ?_
      obtain ⟨item, _, same⟩ := mem_right_of_forall₂ (mapM_eq_ok_iff.mp all) member
      exact ih same
    | _ => cases h
  | set elem ih =>
    cases value with
    | set items =>
      obtain ⟨found, all, rfl⟩ := map_eq_ok_iff.mp h
      refine .set (fun made member => ?_) (Value.nodup_distinct found)
      obtain ⟨item, _, same⟩ :=
        mem_right_of_forall₂ (mapM_eq_ok_iff.mp all) (Value.mem_distinct.mp member)
      exact ih same
    | _ => cases h
  | dict key elem ihKey ihElem =>
    cases value with
    | dict entries =>
      obtain ⟨found, all, rfl⟩ := map_eq_ok_iff.mp h
      have each : ∀ made ∈ found, r.HasType key made.1 ∧ r.HasType elem made.2 := by
        intro made member
        obtain ⟨entry, _, same⟩ := mem_right_of_forall₂ (mapM_eq_ok_iff.mp all) member
        obtain ⟨k, hk, same⟩ := bind_eq_ok_iff.mp same
        obtain ⟨v, hv, same⟩ := bind_eq_ok_iff.mp same
        cases same
        exact ⟨ihKey hk, ihElem hv⟩
      exact .dict (fun made member => (each made member).1) fun made member =>
        (each made member).2
    | _ => cases h

/-- Conversion of each item to itself gives the same list. -/
theorem mapM_eq_self {ε α : Type} {f : α → Except ε α} {items : List α}
    (each : ∀ item ∈ items, f item = .ok item) : items.mapM f = .ok items := by
  rw [mapM_eq_ok_iff, List.forall₂_same]
  exact each

/-- A value that has the type is left as it is. -/
theorem HasType.conform_eq {ty : Ty} {value : Value} (typed : r.HasType ty value) :
    r.conform ty value = .ok value := by
  induction typed with
  | void | bool | i32 | i64 | f32 | f64 | str => rfl
  | enumerator found declared =>
    have checked := checkEnumerator_eq_ok_iff.mpr ⟨rfl, _, found, declared⟩
    simp only [conform, checked, Except.map]
  | object tag_eq => simp only [conform, tag_eq, if_true]
  | array each ih => simp only [conform, mapM_eq_self ih, Except.map]
  | set each once ih =>
    simp only [conform, mapM_eq_self ih, Except.map, Value.distinct_of_nodup once]
  | @dict key elem entries keys values ihKeys ihValues =>
    have each : ∀ entry ∈ entries, (do
        return (← r.conform key entry.1, ← r.conform elem entry.2) :
          Except Fault (Value × Value)) = .ok entry := by
      intro entry member
      rw [ihKeys entry member, ihValues entry member]
      rfl
    exact congrArg (Except.map Value.dict) (mapM_eq_self each)

end Registry

end ObjectBoundary
