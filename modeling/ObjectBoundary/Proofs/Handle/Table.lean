import ObjectBoundary.Handle.Table
import ObjectBoundary.Proofs.Handle.Word

/-!
# The handle table keeps its form

What a well-formed table is, what giving out and ending a handle do to its slots, and what every
handle names afterwards. A slot without a reference is free or retired, never lost.
-/

namespace ObjectBoundary.HandleTable

/-- The reference behind a live handle. -/
def bound? (table : HandleTable) (handle : Handle) : Option Ref :=
  match table.find handle with
  | .ok (_, ref) => some ref
  | .error _ => none

/-- The number of live handles bound to the object with a number. -/
def share (table : HandleTable) (n : Nat) : Nat :=
  table.slots.countP fun slot => slot.entry.any (·.number == n)

structure WellFormed (table : HandleTable) : Prop where
  live_eq : table.live = table.slots.countP (·.entry.isSome)
  free_nodup : table.free.Nodup
  mem_free : ∀ i : Nat, i ∈ table.free ↔
    ∃ g, table.slots[i]? = some ⟨g, none⟩ ∧ g < lastGeneration
  generation_pos : ∀ (i : Nat) (slot : Slot), table.slots[i]? = some slot → 0 < slot.generation
  occupied_lt : ∀ (i : Nat) g ref, table.slots[i]? = some ⟨g, some ref⟩ → g < lastGeneration
  length_le : table.slots.length ≤ capacity

theorem wellFormed_empty : WellFormed {} := by
  constructor <;> simp [capacity]

theorem WellFormed.index_lt {table : HandleTable} (wf : table.WellFormed) {i : Nat} {slot : Slot}
    (hi : table.slots[i]? = some slot) : i + 1 < 2 ^ 32 := by
  have hlt := (List.getElem?_eq_some_iff.mp hi).1
  have hle := wf.length_le
  simp only [capacity, UInt32.size] at hle
  omega

/-! ## Finding -/

theorem find_eq_ok_iff {table : HandleTable} {h : Handle} {slot : Slot} {ref : Ref} :
    table.find h = .ok (slot, ref) ↔ h.isNull = false ∧ table.slots[h.index]? = some slot ∧
      slot.entry = some ref ∧ slot.generation = h.generation := by
  unfold find
  cases hnull : h.isNull with
  | true => simp
  | false =>
    cases hs : table.slots[h.index]? with
    | none => simp
    | some found =>
      cases he : found.entry with
      | none =>
        simp only [Bool.false_eq_true, ↓reduceIte, he]
        constructor
        · intro hbad
          cases hbad
        · rintro ⟨_, hslot, hentry, _⟩
          cases hslot
          rw [he] at hentry
          cases hentry
      | some r =>
        by_cases hg : found.generation = h.generation
        · simp only [Bool.false_eq_true, ↓reduceIte, he, hg, Except.ok.injEq, Prod.mk.injEq,
            true_and, Option.some.injEq]
          constructor
          · rintro ⟨rfl, rfl⟩
            exact ⟨rfl, he, hg⟩
          · rintro ⟨rfl, hentry, _⟩
            rw [he] at hentry
            exact ⟨rfl, Option.some.inj hentry⟩
        · simp only [Bool.false_eq_true, ↓reduceIte, he, hg]
          constructor
          · intro hbad
            cases hbad
          · rintro ⟨_, hslot, _, hsame⟩
            cases hslot
            exact absurd hsame hg

theorem bound?_eq_some_iff {table : HandleTable} {h : Handle} {ref : Ref} :
    table.bound? h = some ref ↔ ∃ slot, table.find h = .ok (slot, ref) := by
  unfold bound?
  cases hf : table.find h with
  | error e => simp
  | ok found =>
    obtain ⟨slot, r⟩ := found
    simp only [Option.some.injEq, Except.ok.injEq, Prod.mk.injEq, exists_eq_left']

/-- A live handle names the slot at its index, at its own generation. -/
theorem WellFormed.bound?_iff {table : HandleTable} (wf : table.WellFormed) {h : Handle}
    {ref : Ref} :
    table.bound? h = some ref ↔ table.slots[h.index]? = some ⟨h.generation, some ref⟩ := by
  rw [bound?_eq_some_iff]
  constructor
  · rintro ⟨⟨g, entry⟩, hf⟩
    obtain ⟨_, hs, rfl, rfl⟩ := find_eq_ok_iff.mp hf
    exact hs
  · intro hs
    exact ⟨_, find_eq_ok_iff.mpr
      ⟨Handle.not_isNull_of_index (wf.index_lt hs), hs, rfl, rfl⟩⟩

theorem resolve_none {table : HandleTable} {h : Handle} :
    table.resolve h none = (table.find h).map (·.2) := by
  unfold resolve
  cases table.find h with
  | error e => rfl
  | ok found => rfl

theorem resolve_eq_ok_iff {table : HandleTable} {h : Handle} {expected : Option Tag} {ref : Ref} :
    table.resolve h expected = .ok ref ↔
      table.bound? h = some ref ∧ ∀ tag, expected = some tag → ref.tag = tag := by
  unfold resolve bound?
  cases table.find h with
  | error e =>
    constructor
    · intro hbad
      cases hbad
    · rintro ⟨hbad, _⟩
      cases hbad
  | ok found =>
    obtain ⟨slot, r⟩ := found
    cases expected with
    | none =>
      constructor
      · intro hr
        cases hr
        exact ⟨rfl, by intro tag hbad; cases hbad⟩
      · rintro ⟨hr, _⟩
        cases hr
        rfl
    | some tag =>
      simp only [bind, Except.bind, checkTag]
      by_cases htag : r.tag = tag
      · simp only [htag, ↓reduceIte]
        constructor
        · intro hr
          cases hr
          exact ⟨rfl, by rintro _ ⟨⟩; exact htag⟩
        · rintro ⟨hr, _⟩
          cases hr
          rfl
      · simp only [htag, ↓reduceIte]
        constructor
        · intro hbad
          cases hbad
        · rintro ⟨hr, hbad⟩
          cases hr
          exact absurd (hbad tag rfl) htag

/-- A live handle of another tag is found out. -/
theorem resolve_eq_mismatch {table : HandleTable} {h : Handle} {tag : Tag} {ref : Ref}
    (bound : table.bound? h = some ref) (other : ref.tag ≠ tag) :
    table.resolve h (some tag) = .error (.mismatch tag ref.tag) := by
  obtain ⟨slot, found⟩ := bound?_eq_some_iff.mp bound
  simp only [resolve, found, bind, Except.bind, checkTag, if_neg other]

/-! ## Giving out -/

/-- The two ways to give out a handle: at the next free slot, or at a new slot at the end. -/
theorem WellFormed.issue_cases {table table' : HandleTable} (wf : table.WellFormed) {limit : Nat}
    {ref : Ref} {h : Handle} (ok : table.issue limit ref = .ok (h, table')) :
    (∃ index rest g, table.free = index :: rest ∧ table.slots[index]? = some ⟨g, none⟩ ∧
      g < lastGeneration ∧ h = Handle.ofParts index.toUInt32 g ∧
      table' = ⟨table.slots.set index ⟨g, some ref⟩, rest, table.live + 1⟩) ∨
    (table.free = [] ∧ table.slots.length < capacity ∧
      h = Handle.ofParts table.slots.length.toUInt32 1 ∧
      table' = ⟨table.slots ++ [⟨1, some ref⟩], [], table.live + 1⟩) := by
  unfold issue at ok
  split at ok
  · cases ok
  · split at ok
    next index rest hfree =>
      obtain ⟨g, hs, hg⟩ := (wf.mem_free index).mp (by rw [hfree]; exact List.mem_cons_self)
      simp only [hs, occupy, Except.ok.injEq, Prod.mk.injEq] at ok
      exact .inl ⟨index, rest, g, hfree, hs, hg, ok.1.symm, ok.2.symm⟩
    next hfree =>
      dsimp only at ok
      split at ok
      · cases ok
      next hlt =>
        simp only [occupy, Except.ok.injEq, Prod.mk.injEq] at ok
        refine .inr ⟨hfree, Nat.lt_of_not_ge hlt, ok.1.symm, ?_⟩
        rw [← ok.2, hfree]
        simp

/-- An issue is refused only because of a limit. -/
theorem issue_eq_error {table : HandleTable} {limit : Nat} {ref : Ref} {e : HandleError}
    (failed : table.issue limit ref = .error e) : ∃ n, e = .limit n := by
  unfold issue at failed
  split at failed
  · cases failed
    exact ⟨_, rfl⟩
  · split at failed
    · split at failed
      · cases failed
      · cases failed
        exact ⟨_, rfl⟩
    · dsimp only at failed
      split at failed
      · cases failed
        exact ⟨_, rfl⟩
      · cases failed

/-- What giving out a handle does to the slots: one of them, empty before or new, holds the
reference, at the generation and the index that the handle carries. -/
structure Gives (table : HandleTable) (ref : Ref) (h : Handle) (table' : HandleTable) : Prop where
  index_lt : h.index + 1 < 2 ^ 32
  before : table.slots[h.index]? = some ⟨h.generation, none⟩ ∨
    table.slots.length = h.index ∧ h.generation = 1
  after : table'.slots[h.index]? = some ⟨h.generation, some ref⟩
  other : ∀ i : Nat, i ≠ h.index → table'.slots[i]? = table.slots[i]?

theorem WellFormed.issue_gives {table table' : HandleTable} (wf : table.WellFormed) {limit : Nat}
    {ref : Ref} {h : Handle} (ok : table.issue limit ref = .ok (h, table')) :
    table.Gives ref h table' := by
  rcases wf.issue_cases ok with ⟨index, rest, g, hfree, hs, hg, rfl, rfl⟩ | ⟨hfree, hlt, rfl, rfl⟩
  · have hlen := (List.getElem?_eq_some_iff.mp hs).1
    have hi := Handle.index_ofParts (wf.index_lt hs) g
    have hg := Handle.generation_ofParts (wf.index_lt hs) g
    constructor
    · rw [hi]
      exact wf.index_lt hs
    · rw [hi, hg]
      exact .inl hs
    · rw [hi, hg]
      exact List.getElem?_set_self hlen
    · intro i hne
      rw [hi] at hne
      exact List.getElem?_set_ne (Ne.symm hne)
  · have hlen : table.slots.length + 1 < 2 ^ 32 := by
      simp only [capacity, UInt32.size] at hlt
      omega
    have hi := Handle.index_ofParts hlen 1
    have hg := Handle.generation_ofParts hlen 1
    constructor
    · rw [hi]
      exact hlen
    · rw [hi, hg]
      exact .inr ⟨rfl, rfl⟩
    · rw [hi, hg]
      exact List.getElem?_concat_length
    · intro i hne
      rw [hi] at hne
      rw [List.getElem?_append]
      split
      · rfl
      · rw [List.getElem?_eq_none (by simp; omega), List.getElem?_eq_none (by omega)]

theorem Gives.bound?_eq {table table' : HandleTable} {ref : Ref} {h : Handle}
    (gives : table.Gives ref h table') (wf : table.WellFormed) (wf' : table'.WellFormed)
    (k : Handle) : table'.bound? k = if k = h then some ref else table.bound? k := by
  by_cases hk : k = h
  · subst hk
    rw [if_pos rfl, wf'.bound?_iff]
    exact gives.after
  · rw [if_neg hk]
    apply Option.ext
    intro r
    rw [wf'.bound?_iff, wf.bound?_iff]
    by_cases hi : k.index = h.index
    · rw [hi, gives.after]
      constructor
      · intro hsame
        simp only [Option.some.injEq, Slot.mk.injEq] at hsame
        exact absurd (Handle.eq_of_parts gives.index_lt hi.symm hsame.1).symm hk
      · intro hsame
        rcases gives.before with hempty | ⟨hend, _⟩
        · simp [hempty] at hsame
        · simp [List.getElem?_eq_none (Nat.le_of_eq hend)] at hsame
    · rw [gives.other k.index hi]

theorem Gives.bound?_fresh {table table' : HandleTable} {ref : Ref} {h : Handle}
    (gives : table.Gives ref h table') (wf : table.WellFormed) : table.bound? h = none := by
  apply Option.eq_none_iff_forall_ne_some.mpr
  intro r hr
  rw [wf.bound?_iff] at hr
  rcases gives.before with hempty | ⟨hend, _⟩
  · rw [hempty] at hr
    cases hr
  · rw [List.getElem?_eq_none (by omega)] at hr
    cases hr

theorem WellFormed.issue {table table' : HandleTable} (wf : table.WellFormed) {limit : Nat}
    {ref : Ref} {h : Handle} (ok : table.issue limit ref = .ok (h, table')) :
    table'.WellFormed := by
  rcases wf.issue_cases ok with ⟨index, rest, g, hfree, hs, hg, rfl, rfl⟩ | ⟨hfree, hlt, rfl, rfl⟩
  · have hlen := (List.getElem?_eq_some_iff.mp hs).1
    have hget : table.slots[index] = ⟨g, none⟩ := (List.getElem?_eq_some_iff.mp hs).2
    have hnodup : index ∉ rest ∧ rest.Nodup := by
      have := wf.free_nodup
      rw [hfree] at this
      exact List.nodup_cons.mp this
    have hother : ∀ i : Nat, i ≠ index →
        (table.slots.set index ⟨g, some ref⟩)[i]? = table.slots[i]? :=
      fun i hne => List.getElem?_set_ne (Ne.symm hne)
    have hself := List.getElem?_set_self (a := (⟨g, some ref⟩ : Slot)) hlen
    constructor
    · have := wf.live_eq
      simp only [List.countP_set hlen, hget]
      simp only [Option.isSome_none, Bool.false_eq_true, ↓reduceIte, Option.isSome_some,
        Nat.sub_zero, this]
    · exact hnodup.2
    · intro i
      by_cases hi : i = index
      · subst hi
        simp only [hself, hnodup.1, false_iff, Option.some.injEq, Slot.mk.injEq]
        rintro ⟨_, ⟨_, hbad⟩, _⟩
        cases hbad
      · have hmem : i ∈ rest ↔ i ∈ table.free := by
          rw [hfree, List.mem_cons]
          exact ⟨.inr, fun h => h.resolve_left hi⟩
        simp only [hother i hi]
        rw [hmem, wf.mem_free]
    · intro i slot hslot
      by_cases hi : i = index
      · subst hi
        rw [hself] at hslot
        cases hslot
        exact wf.generation_pos i ⟨g, none⟩ hs
      · exact wf.generation_pos i slot (by rw [← hother i hi]; exact hslot)
    · intro i g' ref' hslot
      by_cases hi : i = index
      · subst hi
        rw [hself] at hslot
        cases hslot
        exact hg
      · exact wf.occupied_lt i g' ref' (by rw [← hother i hi]; exact hslot)
    · simpa using wf.length_le
  · have hlast := List.getElem?_concat_length (l := table.slots) (a := (⟨1, some ref⟩ : Slot))
    have hcase : ∀ (i : Nat) slot, (table.slots ++ [⟨1, some ref⟩])[i]? = some slot →
        table.slots[i]? = some slot ∨ i = table.slots.length ∧ slot = ⟨1, some ref⟩ := by
      intro i slot hslot
      rw [List.getElem?_append] at hslot
      split at hslot
      · exact .inl hslot
      · have hi : i = table.slots.length := by
          have := (List.getElem?_eq_some_iff.mp hslot).1
          simp only [List.length_singleton] at this
          omega
        subst hi
        simp only [Nat.sub_self, List.getElem?_cons_zero, Option.some.injEq] at hslot
        exact .inr ⟨rfl, hslot.symm⟩
    constructor
    · simp [wf.live_eq]
    · exact List.nodup_nil
    · intro i
      simp only [List.not_mem_nil, false_iff]
      rintro ⟨g, hs, hg⟩
      rcases hcase i _ hs with hold | ⟨_, hbad⟩
      · have := (wf.mem_free i).mpr ⟨g, hold, hg⟩
        rw [hfree] at this
        cases this
      · cases hbad
    · intro i slot hslot
      rcases hcase i slot hslot with hold | ⟨_, rfl⟩
      · exact wf.generation_pos i slot hold
      · exact (by decide : (0 : UInt32) < 1)
    · intro i g' ref' hslot
      rcases hcase i _ hslot with hold | ⟨_, hnew⟩
      · exact wf.occupied_lt i g' ref' hold
      · cases hnew
        exact (by decide : (1 : UInt32) < lastGeneration)
    · simp only [List.length_append, List.length_singleton]
      omega

theorem WellFormed.share_issue {table table' : HandleTable} (wf : table.WellFormed) {limit : Nat}
    {ref : Ref} {h : Handle} (ok : table.issue limit ref = .ok (h, table')) (n : Nat) :
    table'.share n = table.share n + if ref.number = n then 1 else 0 := by
  rcases wf.issue_cases ok with ⟨index, rest, g, hfree, hs, hg, rfl, rfl⟩ | ⟨hfree, hlt, rfl, rfl⟩
  · have hlen := (List.getElem?_eq_some_iff.mp hs).1
    have hget : table.slots[index] = ⟨g, none⟩ := (List.getElem?_eq_some_iff.mp hs).2
    simp [share, List.countP_set hlen, hget]
  · simp [share, List.countP_singleton]

/-! ## Ending -/

theorem release_eq_ok_iff {table table' : HandleTable} {h : Handle} {expected : Option Tag}
    {ref : Ref} : table.release h expected = .ok (ref, table') ↔
      (∃ slot, table.find h = .ok (slot, ref) ∧ table' = table.vacate h.index slot) ∧
        ∀ tag, expected = some tag → ref.tag = tag := by
  unfold release
  cases hf : table.find h with
  | error e =>
    constructor
    · intro hbad
      cases e <;> cases hbad
    · rintro ⟨⟨_, hbad, _⟩, _⟩
      cases hbad
  | ok found =>
    obtain ⟨slot, r⟩ := found
    simp only [Except.ok.injEq, Prod.mk.injEq, bind, Except.bind, checkTag]
    cases expected with
    | none =>
      simp only [pure, Except.pure, Except.ok.injEq, Prod.mk.injEq, reduceCtorEq, false_implies,
        implies_true, and_true]
      constructor
      · rintro ⟨rfl, rfl⟩
        exact ⟨slot, ⟨rfl, rfl⟩, rfl⟩
      · rintro ⟨_, ⟨rfl, rfl⟩, rfl⟩
        exact ⟨rfl, rfl⟩
    | some tag =>
      by_cases htag : r.tag = tag
      · simp only [htag, ↓reduceIte, pure, Except.pure, Except.ok.injEq, Prod.mk.injEq,
          Option.some.injEq]
        constructor
        · rintro ⟨rfl, rfl⟩
          exact ⟨⟨slot, ⟨rfl, rfl⟩, rfl⟩, by rintro _ rfl; exact htag⟩
        · rintro ⟨⟨_, ⟨rfl, rfl⟩, rfl⟩, _⟩
          exact ⟨rfl, rfl⟩
      · simp only [htag, ↓reduceIte, reduceCtorEq, false_iff]
        rintro ⟨⟨_, ⟨rfl, rfl⟩, rfl⟩, hbad⟩
        exact htag (hbad tag rfl)

/-- Raising the generation of an occupied slot does not overflow. -/
theorem toNat_succ_generation {g : UInt32} (hg : g < lastGeneration) :
    (g + 1).toNat = g.toNat + 1 := by
  have hlt : g.toNat < 4294967295 := UInt32.lt_iff_toNat_lt.mp hg
  rw [UInt32.toNat_add]
  simp only [UInt32.reduceToNat]
  omega

/-- What ending a handle does to the slots: the one it names is emptied and its generation rises. -/
structure Takes (table : HandleTable) (ref : Ref) (h : Handle) (table' : HandleTable) : Prop where
  generation_lt : h.generation < lastGeneration
  before : table.slots[h.index]? = some ⟨h.generation, some ref⟩
  after : table'.slots[h.index]? = some ⟨h.generation + 1, none⟩
  other : ∀ i : Nat, i ≠ h.index → table'.slots[i]? = table.slots[i]?

theorem release_cases {table table' : HandleTable} {h : Handle} {expected : Option Tag}
    {ref : Ref} (ok : table.release h expected = .ok (ref, table')) :
    table.slots[h.index]? = some ⟨h.generation, some ref⟩ ∧
      table' = table.vacate h.index ⟨h.generation, some ref⟩ := by
  obtain ⟨⟨⟨g, entry⟩, hf, htable⟩, _⟩ := release_eq_ok_iff.mp ok
  obtain ⟨_, hs, rfl, rfl⟩ := find_eq_ok_iff.mp hf
  exact ⟨hs, htable⟩

theorem WellFormed.release_takes {table table' : HandleTable} (wf : table.WellFormed) {h : Handle}
    {expected : Option Tag} {ref : Ref} (ok : table.release h expected = .ok (ref, table')) :
    table.Takes ref h table' := by
  obtain ⟨hs, rfl⟩ := release_cases ok
  have hlen := (List.getElem?_eq_some_iff.mp hs).1
  exact ⟨wf.occupied_lt _ _ _ hs, hs, List.getElem?_set_self hlen,
    fun i hne => List.getElem?_set_ne (Ne.symm hne)⟩

theorem Takes.bound?_eq {table table' : HandleTable} {ref : Ref} {h : Handle}
    (takes : table.Takes ref h table') (wf : table.WellFormed) (wf' : table'.WellFormed)
    (k : Handle) : table'.bound? k = if k = h then none else table.bound? k := by
  by_cases hk : k = h
  · subst hk
    rw [if_pos rfl]
    apply Option.eq_none_iff_forall_ne_some.mpr
    intro r hr
    rw [wf'.bound?_iff, takes.after] at hr
    simp at hr
  · rw [if_neg hk]
    apply Option.ext
    intro r
    rw [wf'.bound?_iff, wf.bound?_iff]
    by_cases hi : k.index = h.index
    · rw [hi, takes.after, takes.before]
      simp only [Option.some.injEq, Slot.mk.injEq, reduceCtorEq, and_false, false_iff]
      rintro ⟨hg, _⟩
      exact hk (Handle.eq_of_parts (by rw [hi]; exact wf.index_lt takes.before) hi hg.symm)
    · rw [takes.other k.index hi]

theorem WellFormed.release {table table' : HandleTable} (wf : table.WellFormed) {h : Handle}
    {expected : Option Tag} {ref : Ref} (ok : table.release h expected = .ok (ref, table')) :
    table'.WellFormed := by
  have takes := wf.release_takes ok
  obtain ⟨hs, rfl⟩ := release_cases ok
  have hlen := (List.getElem?_eq_some_iff.mp hs).1
  have hget : table.slots[h.index] = ⟨h.generation, some ref⟩ :=
    (List.getElem?_eq_some_iff.mp hs).2
  have hnext := toNat_succ_generation takes.generation_lt
  have hnot : h.index ∉ table.free := by
    intro hmem
    obtain ⟨g, hempty, _⟩ := (wf.mem_free _).mp hmem
    rw [hs] at hempty
    cases hempty
  constructor
  · have hpos : 0 < table.slots.countP (·.entry.isSome) :=
      List.countP_pos_iff.mpr ⟨_, List.mem_of_getElem? hs, rfl⟩
    have := wf.live_eq
    simp only [vacate, List.countP_set hlen, hget, Option.isSome_some, ↓reduceIte,
      Option.isSome_none, Bool.false_eq_true, Nat.add_zero, this]
  · simp only [vacate]
    split
    · exact List.nodup_cons.mpr ⟨hnot, wf.free_nodup⟩
    · exact wf.free_nodup
  · intro i
    have hfree : i ∈ (table.vacate h.index ⟨h.generation, some ref⟩).free ↔
        i ∈ table.free ∨ i = h.index ∧ h.generation + 1 < lastGeneration := by
      simp only [vacate]
      split
      next hlt => simp only [List.mem_cons, hlt, and_true, or_comm]
      next hge => simp only [hge, and_false, or_false]
    rw [hfree]
    by_cases hi : i = h.index
    · subst hi
      simp only [takes.after, hnot, true_and, false_or, Option.some.injEq, Slot.mk.injEq, and_true,
        exists_eq_left']
    · simp only [takes.other i hi, hi, false_and, or_false, wf.mem_free]
  · intro i slot hslot
    by_cases hi : i = h.index
    · subst hi
      rw [takes.after] at hslot
      cases hslot
      apply UInt32.lt_iff_toNat_lt.mpr
      change 0 < (h.generation + 1).toNat
      omega
    · exact wf.generation_pos i slot (by rw [← takes.other i hi]; exact hslot)
  · intro i g r hslot
    by_cases hi : i = h.index
    · subst hi
      rw [takes.after] at hslot
      simp at hslot
    · exact wf.occupied_lt i g r (by rw [← takes.other i hi]; exact hslot)
  · simpa [vacate] using wf.length_le

theorem share_release {table table' : HandleTable} {h : Handle}
    {expected : Option Tag} {ref : Ref} (ok : table.release h expected = .ok (ref, table'))
    (n : Nat) : table.share n = table'.share n + if ref.number = n then 1 else 0 := by
  obtain ⟨hs, rfl⟩ := release_cases ok
  have hlen := (List.getElem?_eq_some_iff.mp hs).1
  have hget : table.slots[h.index] = ⟨h.generation, some ref⟩ :=
    (List.getElem?_eq_some_iff.mp hs).2
  by_cases hn : ref.number = n
  · have hpos : 0 < table.slots.countP fun slot => slot.entry.any (·.number == n) :=
      List.countP_pos_iff.mpr ⟨_, List.mem_of_getElem? hs, by simp [hn]⟩
    simp only [share, vacate, List.countP_set hlen, hget]
    simp [hn]
    omega
  · simp [share, vacate, List.countP_set hlen, hget, hn]

/-- A live handle keeps its object referenced. -/
theorem share_pos {table : HandleTable} {i : Nat} {g : UInt32} {ref : Ref}
    (hs : table.slots[i]? = some ⟨g, some ref⟩) : 0 < table.share ref.number :=
  List.countP_pos_iff.mpr ⟨_, List.mem_of_getElem? hs, by simp⟩

/-- A handle that can be resolved can be released. -/
theorem release_of_bound {table : HandleTable} {h : Handle} {ref : Ref}
    (hb : table.bound? h = some ref) :
    ∃ table', table.release h none = .ok (ref, table') := by
  obtain ⟨slot, hf⟩ := bound?_eq_some_iff.mp hb
  exact ⟨table.vacate h.index slot,
    release_eq_ok_iff.mpr ⟨⟨slot, hf, rfl⟩, by intro tag hbad; cases hbad⟩⟩

/-! ### Tables with the same live handles -/

/-- The handle that an occupied slot belongs to. -/
theorem WellFormed.exists_bound {table : HandleTable} (wf : table.WellFormed) {i : Nat}
    {g : UInt32} {ref : Ref} (hs : table.slots[i]? = some ⟨g, some ref⟩) :
    ∃ h : Handle, h.index = i ∧ h.generation = g ∧ table.bound? h = some ref := by
  have hi := Handle.index_ofParts (wf.index_lt hs) g
  have hg := Handle.generation_ofParts (wf.index_lt hs) g
  refine ⟨Handle.ofParts i.toUInt32 g, hi, hg, wf.bound?_iff.mpr ?_⟩
  rw [hi, hg]
  exact hs

theorem WellFormed.bound_of_share_pos {table : HandleTable} (wf : table.WellFormed) {n : Nat}
    (hn : 0 < table.share n) : ∃ h ref, table.bound? h = some ref ∧ ref.number = n := by
  obtain ⟨⟨g, entry⟩, hmem, hentry⟩ := List.countP_pos_iff.mp hn
  obtain ⟨i, hi⟩ := List.getElem?_of_mem hmem
  cases entry with
  | none => cases hentry
  | some ref =>
    obtain ⟨h, _, _, hb⟩ := wf.exists_bound hi
    exact ⟨h, ref, hb, by simpa using hentry⟩

theorem WellFormed.entry_of_bound {table table' : HandleTable} (wf : table.WellFormed)
    (wf' : table'.WellFormed) {ref : Ref}
    (kept : ∀ h, table.bound? h = some ref → table'.bound? h = some ref) {i : Nat}
    (h : table.slots[i]?.bind (·.entry) = some ref) :
    table'.slots[i]?.bind (·.entry) = some ref := by
  obtain ⟨⟨g, entry⟩, hs, rfl⟩ := Option.bind_eq_some_iff.mp h
  obtain ⟨k, rfl, rfl, hb⟩ := wf.exists_bound hs
  rw [wf'.bound?_iff.mp (kept k hb)]
  rfl

theorem countP_of_entries {slots slots' : List Slot} (p : Option Ref → Bool)
    (hnone : p none = false)
    (same : ∀ i : Nat, p (slots'[i]?.bind (·.entry)) = p (slots[i]?.bind (·.entry))) :
    slots'.countP (fun slot => p slot.entry) = slots.countP (fun slot => p slot.entry) := by
  induction slots generalizing slots' with
  | nil =>
    have none_counted : ∀ slot ∈ slots', p slot.entry = false := by
      intro slot hslot
      obtain ⟨i, hi⟩ := List.getElem?_of_mem hslot
      simpa [hi, hnone] using same i
    simp only [List.countP_nil, List.countP_eq_zero]
    intro slot hslot
    simp [none_counted slot hslot]
  | cons slot slots ih =>
    cases slots' with
    | nil =>
      have hhead : p slot.entry = false := by simpa [hnone] using (same 0).symm
      have hrest : ([] : List Slot).countP (fun slot => p slot.entry) =
          slots.countP fun slot => p slot.entry := ih fun i => by simpa using same (i + 1)
      simp [hhead, ← hrest]
    | cons slot' slots' =>
      have hhead : p slot'.entry = p slot.entry := by simpa using same 0
      have hrest := ih fun i => by simpa using same (i + 1)
      simp only [List.countP_cons, hhead, hrest]

/-- Tables with the same live handles of an object count them alike. -/
theorem WellFormed.share_congr {table table' : HandleTable} (wf : table.WellFormed)
    (wf' : table'.WellFormed) {n : Nat}
    (same : ∀ h ref, ref.number = n → (table'.bound? h = some ref ↔ table.bound? h = some ref)) :
    table'.share n = table.share n := by
  refine countP_of_entries (fun entry => entry.any fun ref => ref.number == n) rfl fun i => ?_
  rw [Bool.eq_iff_iff]
  simp only [Option.any_eq_true, beq_iff_eq]
  constructor
  · rintro ⟨ref, entry, number⟩
    exact ⟨ref, wf'.entry_of_bound wf (fun h => (same h ref number).mp) entry, number⟩
  · rintro ⟨ref, entry, number⟩
    exact ⟨ref, wf.entry_of_bound wf' (fun h => (same h ref number).mpr) entry, number⟩

/-- Tables with the same live handles count the same. -/
theorem WellFormed.counts_of_bound_eq {table table' : HandleTable} (wf : table.WellFormed)
    (wf' : table'.WellFormed) (same : ∀ h, table'.bound? h = table.bound? h) :
    table'.live = table.live ∧ ∀ n, table'.share n = table.share n := by
  have entries : ∀ i : Nat,
      table'.slots[i]?.bind (·.entry) = table.slots[i]?.bind (·.entry) := by
    intro i
    apply Option.ext
    intro ref
    exact ⟨wf'.entry_of_bound wf fun h hb => (same h).symm.trans hb,
      wf.entry_of_bound wf' fun h hb => (same h).trans hb⟩
  constructor
  · rw [wf.live_eq, wf'.live_eq]
    exact countP_of_entries Option.isSome rfl fun i => congrArg _ (entries i)
  · exact fun n => wf.share_congr wf' fun h ref _ => by rw [same h]

end ObjectBoundary.HandleTable
