import ObjectBoundary.Proofs.Collections

/-!
# Values that are the same

One comparison decides which members a set keeps and to which entry a key belongs. It finds two
values the same when they are one tree: at the end of every path stands the same constructor, with
the same content in a plain value and with the same length in a collection. This is an equivalence,
and a value can stand for another one that is the same: conversions, insertions and copies end
alike, wherever in a value or in a collection the one was put in the place of the other.

Plain values that are the same are equal. Collections are followed item by item, through lists of
values that are the same one by one: conversion and de-duplication are shown to rest on nothing but
an equivalence that goes down into collections.
-/

namespace ObjectBoundary

namespace Value

/-- Two values are the same. -/
abbrev Same (a b : Value) : Prop := a.same b = true

/-- The entries of two dictionaries are the same when their keys and their values are. -/
def SamePair (p q : Value × Value) : Prop := p.1.Same q.1 ∧ p.2.Same q.2

variable {a b c d : Value} {as bs : List Value} {ps qs : List (Value × Value)}

/-! ### An equivalence -/

/-- Items are compared one by one, once there are as many of them: without the first comparison a
longer list would be the same as its beginning. -/
theorem sameItems_eq (as bs : List Value) :
    sameItems as bs =
      (as.length == bs.length && (as.zip bs).all fun pair => pair.1.same pair.2) := by
  induction as generalizing bs with
  | nil => cases bs <;> rfl
  | cons a as ih =>
    cases bs with
    | nil => rfl
    | cons b bs =>
      rw [sameItems, ih bs, List.zip_cons_cons, List.all_cons, Bool.and_left_comm]
      simp

/-- Entries are compared in the same way, by their keys and their values. -/
theorem sameEntries_eq (ps qs : List (Value × Value)) :
    sameEntries ps qs = (ps.length == qs.length &&
      (ps.zip qs).all fun pair => pair.1.1.same pair.2.1 && pair.1.2.same pair.2.2) := by
  induction ps generalizing qs with
  | nil => cases qs <;> rfl
  | cons p ps ih =>
    cases qs with
    | nil => rfl
    | cons q qs =>
      rw [sameEntries, ih qs, List.zip_cons_cons, List.all_cons, Bool.and_left_comm]
      simp

theorem sameItems_iff : sameItems as bs = true ↔ List.Forall₂ Same as bs := by
  rw [sameItems_eq, List.forall₂_iff_zip]
  simp

theorem sameEntries_iff : sameEntries ps qs = true ↔ List.Forall₂ SamePair ps qs := by
  rw [sameEntries_eq, List.forall₂_iff_zip]
  simp [SamePair]

theorem same_equivalence : Equivalence Same where
  refl a := (same_iff_eq a a).mpr rfl
  symm same := (same_iff_eq _ _).mpr ((same_iff_eq _ _).mp same).symm
  trans first second :=
    (same_iff_eq _ _).mpr (((same_iff_eq _ _).mp first).trans ((same_iff_eq _ _).mp second))

theorem samePair_refl (p : Value × Value) : SamePair p p :=
  ⟨same_equivalence.refl p.1, same_equivalence.refl p.2⟩

/-- Values that are the same are the same as the same values. -/
theorem same_congr (left : a.Same b) (right : c.Same d) : a.same c = b.same d := by
  rw [Bool.eq_iff_iff]
  constructor
  · exact fun same => same_equivalence.trans (same_equivalence.symm left)
      (same_equivalence.trans same right)
  · exact fun same => same_equivalence.trans left
      (same_equivalence.trans same (same_equivalence.symm right))

/-! ### One tree -/

/-- A step from a collection to one of its parts. -/
inductive Branch where
  | item (index : Nat)
  | key (index : Nat)
  | value (index : Nat)

/-- What a value shows before its parts are looked at: its constructor, with the content of a plain
value and with the number of items or entries of a collection. -/
inductive Root where
  | void
  | bool (value : Bool)
  | i32 (value : Int32)
  | i64 (value : Int64)
  | f32 (pattern : UInt32)
  | f64 (pattern : UInt64)
  | str (value : String)
  | enumerator (value : Int64)
  | object (ref : Ref)
  | array (length : Nat)
  | dict (length : Nat)
  | set (length : Nat)

def root : Value → Root
  | .void => .void
  | .bool b => .bool b
  | .i32 n => .i32 n
  | .i64 n => .i64 n
  | .f32 pattern => .f32 pattern
  | .f64 pattern => .f64 pattern
  | .str s => .str s
  | .enumerator n => .enumerator n
  | .object ref => .object ref
  | .array items => .array items.length
  | .dict entries => .dict entries.length
  | .set items => .set items.length

def branch? : Value → Branch → Option Value
  | .array items, .item index => items[index]?
  | .set items, .item index => items[index]?
  | .dict entries, .key index => entries[index]?.map Prod.fst
  | .dict entries, .value index => entries[index]?.map Prod.snd
  | _, _ => none

/-- The root of the part at the end of a path, if the path leads to one. -/
def rootAt? (v : Value) : List Branch → Option Root
  | [] => some v.root
  | branch :: path => (v.branch? branch).bind (rootAt? · path)

-- The empty path compares the constructors, and the paths through one branch together compare the
-- two parts behind it.
mutual

theorem same_of_rootAt? (a b : Value) (alike : ∀ path, a.rootAt? path = b.rootAt? path) :
    a.same b = true := by
  have here : a.root = b.root := Option.some.inj (alike [])
  cases a with
  | array items =>
    cases b with
    | array others =>
      exact sameItems_of_rootAt? items others (Root.array.inj here) fun index path =>
        alike (.item index :: path)
    | _ => cases here
  | set items =>
    cases b with
    | set others =>
      exact sameItems_of_rootAt? items others (Root.set.inj here) fun index path =>
        alike (.item index :: path)
    | _ => cases here
  | dict entries =>
    cases b with
    | dict others =>
      exact sameEntries_of_rootAt? entries others (Root.dict.inj here)
        (fun index path => alike (.key index :: path)) fun index path =>
        alike (.value index :: path)
    | _ => cases here
  | void | bool | i32 | i64 | f32 | f64 | str | enumerator | object =>
    cases b <;> cases here
    exact same_equivalence.refl _

theorem sameItems_of_rootAt? (as bs : List Value) (length_eq : as.length = bs.length)
    (alike : ∀ (index : Nat) path,
      as[index]?.bind (rootAt? · path) = bs[index]?.bind (rootAt? · path)) :
    sameItems as bs = true := by
  match as, bs with
  | [], [] => rfl
  | [], _ :: _ | _ :: _, [] => cases length_eq
  | a :: as, b :: bs =>
    have first := same_of_rootAt? a b fun path => by simpa using alike 0 path
    have rest := sameItems_of_rootAt? as bs (Nat.succ.inj length_eq) fun index path => by
      simpa using alike (index + 1) path
    rw [sameItems, first, rest, Bool.and_self]

theorem sameEntries_of_rootAt? (ps qs : List (Value × Value)) (length_eq : ps.length = qs.length)
    (keys : ∀ (index : Nat) path, (ps[index]?.map Prod.fst).bind (rootAt? · path) =
      (qs[index]?.map Prod.fst).bind (rootAt? · path))
    (values : ∀ (index : Nat) path, (ps[index]?.map Prod.snd).bind (rootAt? · path) =
      (qs[index]?.map Prod.snd).bind (rootAt? · path)) :
    sameEntries ps qs = true := by
  match ps, qs with
  | [], [] => rfl
  | [], _ :: _ | _ :: _, [] => cases length_eq
  | (k, v) :: ps, (l, w) :: qs =>
    have key := same_of_rootAt? k l fun path => by simpa using keys 0 path
    have value := same_of_rootAt? v w fun path => by simpa using values 0 path
    have rest := sameEntries_of_rootAt? ps qs (Nat.succ.inj length_eq)
      (fun index path => by simpa using keys (index + 1) path) fun index path => by
        simpa using values (index + 1) path
    rw [sameEntries, key, value, rest, Bool.and_self, Bool.and_self]

end

/-- Two values are the same exactly when they show the same at the end of every path. -/
theorem same_iff_rootAt? : a.Same b ↔ ∀ path, a.rootAt? path = b.rootAt? path := by
  refine ⟨fun same path => ?_, same_of_rootAt? a b⟩
  rw [(same_iff_eq a b).mp same]

/-- Values that are the same are equal, or collections of one kind whose contents are the same one
by one. -/
inductive Matched : Value → Value → Prop where
  | equal (v : Value) : Matched v v
  | array {as bs : List Value} (items : List.Forall₂ Same as bs) : Matched (.array as) (.array bs)
  | set {as bs : List Value} (items : List.Forall₂ Same as bs) : Matched (.set as) (.set bs)
  | dict {ps qs : List (Value × Value)}
      (entries : List.Forall₂ SamePair ps qs) : Matched (.dict ps) (.dict qs)

theorem same_iff_matched : a.Same b ↔ Matched a b := by
  constructor
  · intro same
    cases a with
    | array items =>
      cases b with
      | array others => exact .array (sameItems_iff.mp same)
      | _ => cases same
    | set items =>
      cases b with
      | set others => exact .set (sameItems_iff.mp same)
      | _ => cases same
    | dict entries =>
      cases b with
      | dict others => exact .dict (sameEntries_iff.mp same)
      | _ => cases same
    | void | bool | i32 | i64 | f32 | f64 | str | enumerator | object =>
      rw [(same_iff_eq _ _).mp same]
      exact .equal _
  · intro matched
    cases matched with
    | equal => exact same_equivalence.refl a
    | array items | set items => exact sameItems_iff.mpr items
    | dict entries => exact sameEntries_iff.mpr entries

theorem kindName_eq_of_same (same : a.Same b) : a.kindName = b.kindName := by
  cases same_iff_matched.mp same <;> rfl

end Value

/-! ### Attempts that end alike -/

/-- Two attempts end alike: with one fault, or with results that are related. -/
inductive Alike {α : Type} (R : α → α → Prop) : Except Fault α → Except Fault α → Prop where
  | ok {a b : α} (related : R a b) : Alike R (.ok a) (.ok b)
  | error (fault : Fault) : Alike R (.error fault) (.error fault)

section Alike

variable {α β : Type} {R : α → α → Prop} {S : β → β → Prop} {x y : Except Fault α}

theorem Alike.of_refl (refl : ∀ a, R a a) (x : Except Fault α) : Alike R x x := by
  cases x with
  | ok a => exact .ok (refl a)
  | error fault => exact .error fault

theorem Alike.bind {f g : α → Except Fault β} (alike : Alike R x y)
    (next : ∀ a b, R a b → Alike S (f a) (g b)) : Alike S (x >>= f) (y >>= g) := by
  cases alike with
  | ok related => exact next _ _ related
  | error fault => exact .error fault

theorem Alike.map {f g : α → β} (alike : Alike R x y) (next : ∀ a b, R a b → S (f a) (g b)) :
    Alike S (x.map f) (y.map g) := by
  cases alike with
  | ok related => exact .ok (next _ _ related)
  | error fault => exact .error fault

theorem alike_mapM {f : α → Except Fault β} {as bs : List α}
    (each : ∀ a b, R a b → Alike S (f a) (f b)) (items : List.Forall₂ R as bs) :
    Alike (List.Forall₂ S) (as.mapM f) (bs.mapM f) := by
  induction items with
  | nil => exact .ok .nil
  | cons head _ ih =>
    rw [List.mapM_cons, List.mapM_cons]
    exact (each _ _ head).bind fun _ _ first => ih.bind fun _ _ rest => .ok (.cons first rest)

end Alike

/-! ### Conversion -/

namespace Value

variable {a b : Value} {as bs : List Value}

theorem addDistinct_same (items : List.Forall₂ Same as bs) (same : a.Same b) :
    List.Forall₂ Same (addDistinct as a) (addDistinct bs b) := by
  have known : as.any (·.same a) = bs.any (·.same b) :=
    any_eq_of_forall₂ items fun _ _ head => same_congr head same
  unfold addDistinct
  rw [known]
  split
  · exact items
  · exact List.rel_append items (.cons same .nil)

theorem distinct_same (items : List.Forall₂ Same as bs) :
    List.Forall₂ Same (distinct as) (distinct bs) :=
  List.rel_foldl (R := Same) (fun _ _ held _ _ same => addDistinct_same held same) .nil items

end Value

/-- Values that are the same convert to values that are the same, or fail with one fault. -/
theorem Registry.conform_same (r : Registry) (ty : Ty) {a b : Value} (same : a.Same b) :
    Alike Value.Same (r.conform ty a) (r.conform ty b) := by
  have refl := Value.same_equivalence.refl
  induction ty generalizing a b with
  | void => exact .ok (refl _)
  | bool | i32 | i64 | f32 | f64 | string | enumeration | interface =>
    cases Value.same_iff_matched.mp same with
    | equal => exact .of_refl refl _
    -- The fault names the type and the kind of the value, and both have the same kind.
    | array | set | dict => exact .error _
  | array elem ih =>
    cases Value.same_iff_matched.mp same with
    | equal => exact .of_refl refl _
    | array items =>
      exact (alike_mapM (R := Value.Same) (fun _ _ => ih) items).map fun _ _ converted =>
        Value.same_iff_matched.mpr (.array converted)
    | set | dict => exact .error _
  | set elem ih =>
    cases Value.same_iff_matched.mp same with
    | equal => exact .of_refl refl _
    | set items =>
      exact (alike_mapM (R := Value.Same) (fun _ _ => ih) items).map fun _ _ converted =>
        Value.same_iff_matched.mpr (.set (Value.distinct_same converted))
    | array | dict => exact .error _
  | dict key elem ihKey ihElem =>
    cases Value.same_iff_matched.mp same with
    | equal => exact .of_refl refl _
    | dict entries =>
      have each (p q : Value × Value) (pair : Value.SamePair p q) :
          Alike Value.SamePair
            (do return (← r.conform key p.1, ← r.conform elem p.2))
            (do return (← r.conform key q.1, ← r.conform elem q.2)) :=
        (ihKey pair.1).bind fun _ _ k => (ihElem pair.2).bind fun _ _ v => .ok ⟨k, v⟩
      exact (alike_mapM each entries).map fun _ _ converted =>
        Value.same_iff_matched.mpr (.dict converted)
    | array | set => exact .error _

/-! ### De-duplication -/

structure Entry.Same (e f : Entry) : Prop where
  key : Option.Rel Value.Same e.key f.key
  value : e.value.Same f.value

namespace Entry

variable {e f : Entry} {a b : Value}

theorem sameKey_refl (key : Option Value) : Option.Rel Value.Same key key := by
  cases key with
  | none => exact .none
  | some key => exact .some (Value.same_equivalence.refl key)

theorem Same.refl (e : Entry) : e.Same e :=
  ⟨sameKey_refl e.key, Value.same_equivalence.refl e.value⟩

theorem same_item (same : a.Same b) : (item a).Same (item b) := ⟨.none, same⟩

theorem Same.hasKey_eq (same : e.Same f) (key : a.Same b) : e.hasKey a = f.hasKey b := by
  have keys := same.key
  unfold hasKey
  generalize e.key = k at keys
  generalize f.key = l at keys
  cases keys with
  | none => rfl
  | some existing => exact Value.same_congr existing key

end Entry

/-- Two collections differ at most by entries that are the same. -/
structure Collection.Same (c d : Collection) : Prop where
  rest : { c with entries := d.entries } = d
  entries : List.Forall₂ Entry.Same c.entries d.entries

namespace Collection

/-- Two insertions give one answer and leave collections that are the same. -/
def Answered (x y : Bool × Collection) : Prop := x.1 = y.1 ∧ x.2.Same y.2

variable {es fs : List Entry} {c d : Collection} {a b v w : Value}

theorem any_value_eq (entries : List.Forall₂ Entry.Same es fs) (same : a.Same b) :
    es.any (·.value.same a) = fs.any (·.value.same b) :=
  any_eq_of_forall₂ entries fun _ _ head => Value.same_congr head.value same

theorem addMember_same (entries : List.Forall₂ Entry.Same es fs) (same : a.Same b) :
    List.Forall₂ Entry.Same (addMember es a) (addMember fs b) := by
  unfold addMember
  rw [any_value_eq entries same]
  split
  · exact entries
  · exact List.rel_append entries (.cons (Entry.same_item same) .nil)

theorem putEntry_same (entries : List.Forall₂ Entry.Same es fs) (key : a.Same b)
    (value : v.Same w) : List.Forall₂ Entry.Same (putEntry a v es) (putEntry b w fs) := by
  induction entries with
  | nil => exact .cons ⟨.some key, value⟩ .nil
  | cons head tail ih =>
    unfold putEntry
    rw [head.hasKey_eq key]
    split
    · exact .cons ⟨head.key, value⟩ tail
    · exact .cons head ih

theorem Same.refl (c : Collection) : c.Same c where
  rest := rfl
  entries := List.forall₂_same.mpr fun e _ => .refl e

theorem Same.withEntries (same : c.Same d) (entries : List.Forall₂ Entry.Same es fs) :
    Same { c with entries := es } { d with entries := fs } where
  rest := by rw [← same.rest]
  entries := entries

theorem Same.checkWritable_eq (same : c.Same d) (kind : CollectionKind) :
    c.checkWritable kind = d.checkWritable kind := by
  rw [← same.rest]
  rfl

theorem Same.insert (same : c.Same d) (value : v.Same w) :
    Alike Answered (c.insert v) (d.insert w) := by
  unfold Collection.insert
  rw [same.checkWritable_eq, any_value_eq same.entries value]
  cases d.checkWritable .set with
  | error fault => exact .error fault
  | ok _ => exact .ok ⟨rfl, same.withEntries (addMember_same same.entries value)⟩

theorem Same.insertEntry (same : c.Same d) (key : a.Same b) (value : v.Same w) :
    Alike Answered (c.insertEntry a v) (d.insertEntry b w) := by
  have known : c.entries.any (·.hasKey a) = d.entries.any (·.hasKey b) :=
    any_eq_of_forall₂ same.entries fun _ _ head => head.hasKey_eq key
  unfold Collection.insertEntry
  rw [same.checkWritable_eq, known]
  cases d.checkWritable .dict with
  | error fault => exact .error fault
  | ok _ => exact .ok ⟨rfl, same.withEntries (putEntry_same same.entries key value)⟩

/-- Values that are the same are both no collections, or collections of one kind that hold the same
entries. -/
theorem entriesOf?_same (same : v.Same w) :
    entriesOf? v = none ∧ entriesOf? w = none ∨
      ∃ kind es fs, entriesOf? v = some (kind, es) ∧ entriesOf? w = some (kind, fs) ∧
        List.Forall₂ Entry.Same es fs := by
  cases Value.same_iff_matched.mp same with
  | equal =>
    cases entriesOf? v with
    | none => exact .inl ⟨rfl, rfl⟩
    | some held =>
      exact .inr ⟨held.1, held.2, held.2, rfl, rfl, List.forall₂_same.mpr fun e _ => .refl e⟩
  | array items =>
    exact .inr ⟨_, _, _, rfl, rfl,
      List.rel_map (R := Value.Same) (fun _ _ item => Entry.same_item item) items⟩
  | set items =>
    refine .inr ⟨_, _, _, rfl, rfl, ?_⟩
    rw [copyMembers_eq_foldl, copyMembers_eq_foldl]
    exact List.rel_foldl (R := Value.Same)
      (fun _ _ held _ _ member => addMember_same held member) .nil items
  | dict entries =>
    refine .inr ⟨_, _, _, rfl, rfl, ?_⟩
    rw [copyPairs_eq_foldl, copyPairs_eq_foldl]
    exact List.rel_foldl
      (fun _ _ held _ _ pair => putEntry_same held pair.1 pair.2) .nil entries

theorem snapshot_same (same : v.Same w) (ty : Ty) :
    Alike Same (snapshot v ty) (snapshot w ty) := by
  unfold snapshot
  rw [Value.kindName_eq_of_same same]
  cases declared? ty with
  | none => exact .error _
  | some declared =>
    rcases entriesOf?_same same with ⟨hv, hw⟩ | ⟨kind, es, fs, hv, hw, entries⟩
    · simp only [hv, hw]
      exact .error _
    · simp only [hv, hw]
      split
      · exact .ok ⟨rfl, entries⟩
      · exact .error _

theorem untypedSnapshot_same (same : v.Same w) :
    Alike Same (untypedSnapshot v) (untypedSnapshot w) := by
  unfold untypedSnapshot
  rw [Value.kindName_eq_of_same same]
  rcases entriesOf?_same same with ⟨hv, hw⟩ | ⟨kind, es, fs, hv, hw, entries⟩
  · simp only [hv, hw]
    exact .error _
  · simp only [hv, hw]
    exact .ok ⟨rfl, entries⟩

end Collection

/-! ### One value in the place of another -/

/-- The second value is the first one with one value put in the place of another, at any depth. -/
inductive Value.Replaced (a b : Value) : Value → Value → Prop where
  | here : Replaced a b a b
  | array {v w : Value} (before after : List Value) (inner : Replaced a b v w) :
      Replaced a b (.array (before ++ v :: after)) (.array (before ++ w :: after))
  | set {v w : Value} (before after : List Value) (inner : Replaced a b v w) :
      Replaced a b (.set (before ++ v :: after)) (.set (before ++ w :: after))
  | key {k l : Value} (before after : List (Value × Value)) (value : Value)
      (inner : Replaced a b k l) :
      Replaced a b (.dict (before ++ (k, value) :: after)) (.dict (before ++ (l, value) :: after))
  | value {v w : Value} (before after : List (Value × Value)) (key : Value)
      (inner : Replaced a b v w) :
      Replaced a b (.dict (before ++ (key, v) :: after)) (.dict (before ++ (key, w) :: after))

/-- The second collection is the first one with one value put in the place of another, in a key or
in a value of an entry. -/
inductive Collection.Replaced (a b : Value) : Collection → Collection → Prop where
  | key {k l : Value} (c : Collection) (before after : List Entry) (value : Value)
      (inner : Value.Replaced a b k l) :
      Replaced a b { c with entries := before ++ ⟨some k, value⟩ :: after }
        { c with entries := before ++ ⟨some l, value⟩ :: after }
  | value {v w : Value} (c : Collection) (before after : List Entry) (key : Option Value)
      (inner : Value.Replaced a b v w) :
      Replaced a b { c with entries := before ++ ⟨key, v⟩ :: after }
        { c with entries := before ++ ⟨key, w⟩ :: after }

/-- Nothing comes out differently when one value is put in the place of another: not the conversion
of a value, not an insertion into a collection or of a value, and not a copy of a value. -/
structure Interchangeable (a b : Value) : Prop where
  conform {v w : Value} (replaced : Value.Replaced a b v w) (r : Registry) (ty : Ty) :
    Alike Value.Same (r.conform ty v) (r.conform ty w)
  insert {c d : Collection} (replaced : Collection.Replaced a b c d) (value : Value) :
    Alike Collection.Answered (c.insert value) (d.insert value)
  insertEntry {c d : Collection} (replaced : Collection.Replaced a b c d) (key value : Value) :
    Alike Collection.Answered (c.insertEntry key value) (d.insertEntry key value)
  member {v w : Value} (replaced : Value.Replaced a b v w) (c : Collection) :
    Alike Collection.Answered (c.insert v) (c.insert w)
  key {k l : Value} (replaced : Value.Replaced a b k l) (c : Collection) (value : Value) :
    Alike Collection.Answered (c.insertEntry k value) (c.insertEntry l value)
  value {v w : Value} (replaced : Value.Replaced a b v w) (c : Collection) (key : Value) :
    Alike Collection.Answered (c.insertEntry key v) (c.insertEntry key w)
  snapshot {v w : Value} (replaced : Value.Replaced a b v w) (ty : Ty) :
    Alike Collection.Same (Collection.snapshot v ty) (Collection.snapshot w ty)
  untypedSnapshot {v w : Value} (replaced : Value.Replaced a b v w) :
    Alike Collection.Same (Collection.untypedSnapshot v) (Collection.untypedSnapshot w)

variable {a b : Value}

theorem Value.Replaced.same {v w : Value} (replaced : Replaced a b v w) (same : a.Same b) :
    v.Same w := by
  have refl := same_equivalence.refl
  induction replaced with
  | here => exact same
  | array before after _ ih => exact same_iff_matched.mpr (.array (forall₂_middle refl _ _ ih))
  | set before after _ ih => exact same_iff_matched.mpr (.set (forall₂_middle refl _ _ ih))
  | key before after value _ ih =>
    exact same_iff_matched.mpr (.dict (forall₂_middle samePair_refl _ _ ⟨ih, refl value⟩))
  | value before after key _ ih =>
    exact same_iff_matched.mpr (.dict (forall₂_middle samePair_refl _ _ ⟨refl key, ih⟩))

theorem Collection.Replaced.same {c d : Collection} (replaced : Replaced a b c d)
    (same : a.Same b) : c.Same d := by
  cases replaced with
  | key c before after value inner =>
    exact ⟨rfl, forall₂_middle Entry.Same.refl _ _
      ⟨.some (inner.same same), Value.same_equivalence.refl value⟩⟩
  | value c before after key inner =>
    exact ⟨rfl, forall₂_middle Entry.Same.refl _ _
      ⟨Entry.sameKey_refl key, inner.same same⟩⟩

theorem interchangeable_of_same (same : a.Same b) : Interchangeable a b where
  conform replaced r ty := r.conform_same ty (replaced.same same)
  insert replaced value := (replaced.same same).insert (Value.same_equivalence.refl value)
  insertEntry replaced key value :=
    (replaced.same same).insertEntry (Value.same_equivalence.refl key)
      (Value.same_equivalence.refl value)
  member replaced c := (Collection.Same.refl c).insert (replaced.same same)
  key replaced c value :=
    (Collection.Same.refl c).insertEntry (replaced.same same) (Value.same_equivalence.refl value)
  value replaced c key :=
    (Collection.Same.refl c).insertEntry (Value.same_equivalence.refl key) (replaced.same same)
  snapshot replaced ty := Collection.snapshot_same (replaced.same same) ty
  untypedSnapshot replaced := Collection.untypedSnapshot_same (replaced.same same)

/-! ### What is found to be there -/

/-- A value is left out of a list of distinct ones exactly when the same value came before it. -/
theorem Value.length_distinct_concat_iff {items : List Value} {value : Value} :
    (distinct (items ++ [value])).length = (distinct items).length ↔
      ∃ item ∈ items, item.Same value := by
  have listed : value ∈ distinct items ↔ ∃ item ∈ items, item.Same value := by
    simp [mem_distinct, same_iff_eq]
  rw [distinct_concat, ← listed]
  by_cases known : value ∈ distinct items
  · simp [addDistinct_of_mem known, known]
  · simp [addDistinct_of_not_mem known, known]

namespace Collection

variable {c : Collection} {key value : Value}

theorem insert_refused_iff : (c.insert value).map Prod.fst = .ok false ↔
    c.kind = .set ∧ c.isSealed = false ∧ ∃ entry ∈ c.entries, entry.value.Same value := by
  rw [← and_assoc, ← checkWritable_ok_iff]
  unfold Collection.insert
  cases c.checkWritable .set <;> simp [Except.map]

theorem insertEntry_replaces_iff : (c.insertEntry key value).map Prod.fst = .ok false ↔
    c.kind = .dict ∧ c.isSealed = false ∧
      ∃ entry ∈ c.entries, ∃ held, entry.key = some held ∧ held.Same key := by
  have holds (entry : Entry) :
      entry.hasKey key = true ↔ ∃ held, entry.key = some held ∧ held.Same key := by
    unfold Entry.hasKey
    cases entry.key <;> simp
  rw [← and_assoc, ← checkWritable_ok_iff]
  unfold Collection.insertEntry
  cases c.checkWritable .dict <;> simp [Except.map, holds]

def copyCount (value : Value) : Except Fault Nat := (untypedSnapshot value).map count

theorem copyCount_set (items : List Value) :
    copyCount (.set items) = .ok (Value.distinct items).length := by
  simp [copyCount, untypedSnapshot, entriesOf?, Value.copyMembers_nil, Except.map, count]

theorem copyCount_dict (pairs : List (Value × Value)) :
    copyCount (.dict pairs) = .ok (Value.distinct (pairs.map Prod.fst)).length := by
  have length_eq := congrArg List.length (keys_putAll pairs)
  rw [List.length_map, List.length_map] at length_eq
  simp [copyCount, untypedSnapshot, entriesOf?, copyPairs_nil_eq_putAll, Except.map, count,
    length_eq]

theorem copied_member_iff {items : List Value} :
    copyCount (.set (items ++ [value])) = copyCount (.set items) ↔
      ∃ item ∈ items, item.Same value := by
  rw [copyCount_set, copyCount_set, Except.ok.injEq, Value.length_distinct_concat_iff]

theorem copied_key_iff {pairs : List (Value × Value)} :
    copyCount (.dict (pairs ++ [(key, value)])) = copyCount (.dict pairs) ↔
      ∃ pair ∈ pairs, pair.1.Same key := by
  rw [copyCount_dict, copyCount_dict, Except.ok.injEq, List.map_append, List.map_singleton,
    Value.length_distinct_concat_iff]
  simp

end Collection

/-- Sameness is an equivalence. Two values are the same exactly when they are one tree, and then the
one can stand for the other wherever values are converted, inserted or copied. It alone decides what
is there already: an insertion or a copy finds a member, or a key, exactly when one that is the same
came before it. -/
theorem same_congruence :
    Equivalence Value.Same ∧
    (∀ a b : Value, a.Same b ↔ ∀ path, a.rootAt? path = b.rootAt? path) ∧
    (∀ a b : Value, a.Same b → Interchangeable a b) ∧
    (∀ (c : Collection) value, (c.insert value).map Prod.fst = .ok false ↔
      c.kind = .set ∧ c.isSealed = false ∧ ∃ entry ∈ c.entries, entry.value.Same value) ∧
    (∀ (c : Collection) key value, (c.insertEntry key value).map Prod.fst = .ok false ↔
      c.kind = .dict ∧ c.isSealed = false ∧
        ∃ entry ∈ c.entries, ∃ held, entry.key = some held ∧ held.Same key) ∧
    (∀ items value, Collection.copyCount (.set (items ++ [value])) =
      Collection.copyCount (.set items) ↔ ∃ item ∈ items, item.Same value) ∧
    ∀ pairs key value, Collection.copyCount (.dict (pairs ++ [(key, value)])) =
      Collection.copyCount (.dict pairs) ↔ ∃ pair ∈ pairs, pair.1.Same key :=
  ⟨Value.same_equivalence, fun _ _ => Value.same_iff_rootAt?, fun _ _ => interchangeable_of_same,
    fun _ _ => Collection.insert_refused_iff, fun _ _ _ => Collection.insertEntry_replaces_iff,
    fun _ _ => Collection.copied_member_iff, fun _ _ _ => Collection.copied_key_iff⟩

/-- A NaN is the same as itself, and the two zeros are not the same, at any depth. -/
example : Value.Same (.array [.f64 0x7ff8000000000001]) (.array [.f64 0x7ff8000000000001]) ∧
    ¬ Value.Same (.array [.f32 0]) (.array [.f32 0x80000000]) := by
  decide

end ObjectBoundary
