import ObjectBoundary.Proofs.Builders

/-!
# Collections in use

A collection is made as an empty builder or as a sealed copy of a native value. From then on it is
added to, read and enumerated in any order. One use keeps it, moves its cursor or adds to a builder;
so entries stay as their kind asks for, the cursor stays within them, and nothing is lost in the
native value. Builders and copies free their content of repetitions alike: what is there twice keeps
its first place, and a key has the value that it was given last.
-/

namespace ObjectBoundary

/-! ### What is left of repetitions -/

/-- The pairs that are left of given ones: each key once, in the order of their first occurrences,
and with the last value that it was given. -/
structure LastWins (given left : List (Value × Value)) : Prop where
  keys : left.map Prod.fst = (given.map Prod.fst).eraseDupsBy Value.same
  values : ∀ key, (left.find? (·.1.same key)).map Prod.snd =
    (given.reverse.find? (·.1.same key)).map Prod.snd

/-- The entries that a native collection spells out. -/
def Value.entries : Value → List Entry
  | .array items => items.map .item
  | .set items => items.map .item
  | .dict pairs => pairs.map Collection.pairEntry
  | _ => []

namespace Collection

/-- The entries that are left when pairs are stored one after the other. -/
def putAll (pairs : List (Value × Value)) : List Entry :=
  pairs.foldl (fun entries (key, value) => putEntry key value entries) []

variable {c : Collection} {entries : List Entry} {pairs : List (Value × Value)}

theorem copyPairs_nil_eq_putAll (pairs : List (Value × Value)) : copyPairs [] pairs = putAll pairs :=
  copyPairs_eq_foldl [] pairs

theorem putAll_concat (pairs : List (Value × Value)) (pair : Value × Value) :
    putAll (pairs ++ [pair]) = putEntry pair.1 pair.2 (putAll pairs) := by
  simp [putAll]

/-- Of the keys the first occurrences are left. -/
theorem keys_putAll (pairs : List (Value × Value)) :
    (putAll pairs).map Entry.key = (Value.distinct (pairs.map Prod.fst)).map some := by
  induction pairs using List.reverseRecOn with
  | nil => rfl
  | append_singleton pairs pair ih =>
    have listed : some pair.1 ∈ (putAll pairs).map Entry.key ↔
        pair.1 ∈ Value.distinct (pairs.map Prod.fst) := by
      rw [ih, List.mem_map_of_injective (Option.some_injective _)]
    rw [putAll_concat, List.map_append, List.map_singleton, Value.distinct_concat]
    rcases keys_putEntry pair.1 pair.2 (putAll pairs) with ⟨known, keys⟩ | ⟨new, keys⟩
    · rw [keys, ih, Value.addDistinct_of_mem (listed.mp known)]
    · rw [keys, ih, Value.addDistinct_of_not_mem (mt listed.mpr new), List.map_append,
        List.map_singleton]

/-- Under the key that was stored stands the new value, and under other keys what stood there. -/
theorem find?_putEntry (key value other : Value) (entries : List Entry) :
    ((putEntry key value entries).find? (·.hasKey other)).map Entry.value =
      if key.same other then some value else (entries.find? (·.hasKey other)).map Entry.value := by
  induction entries with
  | nil =>
    by_cases same : key.same other <;> simp [putEntry, Entry.hasKey, same]
  | cons first entries ih =>
    by_cases found : first.hasKey key
    · have here (value : Value) :
          ({ first with value } : Entry).hasKey other = key.same other := by
        rw [Bool.eq_iff_iff, hasKey_iff, Value.same_iff_eq, hasKey_iff.mp found, Option.some.injEq]
      rw [putEntry, if_pos found, List.find?_cons, List.find?_cons, here, here first.value]
      cases key.same other <;> rfl
    · rw [putEntry, if_neg found, List.find?_cons, List.find?_cons]
      cases there : first.hasKey other with
      | false => exact ih
      | true =>
        have apart : ¬ key.same other := by
          intro same
          rw [(Value.same_iff_eq _ _).mp same] at found
          exact found there
        simp [apart]

/-- Under a key stands the value that it was given last. -/
theorem find?_putAll (key : Value) (pairs : List (Value × Value)) :
    ((putAll pairs).find? (·.hasKey key)).map Entry.value =
      (pairs.reverse.find? (·.1.same key)).map Prod.snd := by
  induction pairs using List.reverseRecOn with
  | nil => rfl
  | append_singleton pairs pair ih =>
    rw [putAll_concat, find?_putEntry, ih, List.reverse_concat, List.find?_cons]
    cases pair.1.same key <;> rfl

/-- What is left of the pairs that were stored. -/
theorem lastWins_of_putAll {given left : List (Value × Value)}
    (stored : left.map pairEntry = putAll given) : LastWins given left where
  keys := by
    have keys := keys_putAll given
    rw [← stored, List.map_map, Value.distinct_eq] at keys
    apply List.map_injective_iff.mpr (Option.some_injective Value)
    rw [← keys, List.map_map]
    rfl
  values key := by
    rw [← find?_putAll, ← stored, List.find?_map, Option.map_map]
    rfl

end Collection

/-! ### One use -/

/-- One use of a collection. An enumeration hands the entry to a reader that may fail. -/
inductive CollectionUse : Type 1 where
  | push (value : Value)
  | insert (value : Value)
  | insertEntry (key value : Value)
  | item (index : Nat)
  | next
  | nextWith {α : Type} (read : Entry → Except Fault α)
  | reset
  | count
  | toValue

namespace CollectionUse

def Applies (c : Collection) : CollectionUse → Prop
  | .push _ => c.kind = .array ∧ c.isSealed = false
  | .insert _ => c.kind = .set ∧ c.isSealed = false
  | .insertEntry _ _ => c.kind = .dict ∧ c.isSealed = false
  | .item index => index < c.count
  | .nextWith read => ∀ entry, c.current? = some entry → ∃ result, read entry = .ok result
  | .next | .reset | .count | .toValue => True

def pushed? : CollectionUse → Option Value
  | .push value => some value
  | _ => none

def member? : CollectionUse → Option Value
  | .insert value => some value
  | _ => none

def pair? : CollectionUse → Option (Value × Value)
  | .insertEntry key value => some (key, value)
  | _ => none

/-- The entries of a builder after a use. -/
def adds (kind : CollectionKind) (entries : List Entry) : CollectionUse → List Entry
  | .push value => if kind = .array then entries ++ [.item value] else entries
  | .insert value => if kind = .set then addMember entries value else entries
  | .insertEntry key value => if kind = .dict then putEntry key value entries else entries
  | _ => entries

end CollectionUse

namespace Collection

/-- The fault of an operation and the collection that it leaves, which after a failure is as it was.
-/
def settle (c : Collection) : Except Fault Collection → Option Fault × Collection
  | .ok changed => (none, changed)
  | .error fault => (some fault, c)

def use (c : Collection) : CollectionUse → Option Fault × Collection
  | .push value => c.settle (c.push value)
  | .insert value => c.settle ((c.insert value).map Prod.snd)
  | .insertEntry key value => c.settle ((c.insertEntry key value).map Prod.snd)
  | .item index => c.settle ((c.item index).map fun _ => c)
  | .next => c.settle ((c.nextWith (Except.ok : Entry → Except Fault Entry)).map Prod.snd)
  | .nextWith read => c.settle ((c.nextWith read).map Prod.snd)
  | .reset => (none, c.reset)
  | .count | .toValue => (none, c)

def useAll (c : Collection) (uses : List CollectionUse) : Collection :=
  uses.foldl (fun c use => (c.use use).2) c

/-- What one use can make of a collection. -/
inductive Step (c : Collection) : Collection → Prop where
  | kept : Step c c
  | advanced (more : c.cursor < c.count) : Step c c.advance
  | rewound : Step c c.reset
  | pushed (value : Value) (kind : c.kind = .array) (unsealed : c.isSealed = false) :
      Step c { c with entries := c.entries ++ [.item value] }
  | inserted (value : Value) (kind : c.kind = .set) (unsealed : c.isSealed = false) :
      Step c { c with entries := addMember c.entries value }
  | stored (key value : Value) (kind : c.kind = .dict) (unsealed : c.isSealed = false) :
      Step c { c with entries := putEntry key value c.entries }

variable {c after : Collection}

theorem checkWritable_ok_iff {kind : CollectionKind} :
    c.checkWritable kind = .ok () ↔ c.kind = kind ∧ c.isSealed = false := by
  refine ⟨writable_of_check, fun ⟨same, unsealed⟩ => ?_⟩
  simp [checkWritable, same, unsealed]

/-- A reader that fails leaves the cursor where it is. -/
theorem step_nextWith {α : Type} (c : Collection) (read : Entry → Except Fault α) :
    Step c (c.settle ((c.nextWith read).map Prod.snd)).2 := by
  unfold nextWith
  cases here : c.current? with
  | none => exact .kept
  | some entry =>
    have more : c.cursor < c.count := (List.getElem?_eq_some_iff.mp here).1
    cases taken : read entry with
    | error fault =>
      simp only [taken]
      exact .kept
    | ok result =>
      simp only [taken]
      exact .advanced more

theorem step_use (c : Collection) (use : CollectionUse) : Step c (c.use use).2 := by
  cases use with
  | push value =>
    simp only [Collection.use, push]
    cases writable : c.checkWritable .array with
    | error fault => exact .kept
    | ok _ =>
      obtain ⟨kind, unsealed⟩ := writable_of_check writable
      exact .pushed value kind unsealed
  | insert value =>
    simp only [Collection.use, insert]
    cases writable : c.checkWritable .set with
    | error fault => exact .kept
    | ok _ =>
      obtain ⟨kind, unsealed⟩ := writable_of_check writable
      exact .inserted value kind unsealed
  | insertEntry key value =>
    simp only [Collection.use, insertEntry]
    cases writable : c.checkWritable .dict with
    | error fault => exact .kept
    | ok _ =>
      obtain ⟨kind, unsealed⟩ := writable_of_check writable
      exact .stored key value kind unsealed
  | item index =>
    simp only [Collection.use]
    cases c.item index <;> exact .kept
  | next => exact c.step_nextWith _
  | nextWith read => exact c.step_nextWith read
  | reset => exact .rewound
  | count | toValue => exact .kept

theorem nextWith_ok_iff {α : Type} {read : Entry → Except Fault α} :
    (c.settle ((c.nextWith read).map Prod.snd)).1 = none ↔
      ∀ entry, c.current? = some entry → ∃ result, read entry = .ok result := by
  unfold nextWith
  cases c.current? with
  | none => simp [settle, Except.map]
  | some entry =>
    simp only [Option.some.injEq, forall_eq']
    cases read entry with
    | error fault => simp [settle, Except.map]
    | ok result => simp [settle, Except.map]

/-- Only the uses that apply succeed. -/
theorem use_ok_iff (use : CollectionUse) : (c.use use).1 = none ↔ use.Applies c := by
  cases use with
  | push value =>
    rw [CollectionUse.Applies, ← checkWritable_ok_iff]
    simp only [Collection.use, push]
    cases c.checkWritable .array <;> simp [settle]
  | insert value =>
    rw [CollectionUse.Applies, ← checkWritable_ok_iff]
    simp only [Collection.use, insert]
    cases c.checkWritable .set <;> simp [settle, Except.map]
  | insertEntry key value =>
    rw [CollectionUse.Applies, ← checkWritable_ok_iff]
    simp only [Collection.use, insertEntry]
    cases c.checkWritable .dict <;> simp [settle, Except.map]
  | item index =>
    simp only [Collection.use, item, CollectionUse.Applies, count]
    cases found : c.entries[index]? with
    | none => simpa [settle, Except.map] using found
    | some entry => simpa [settle, Except.map] using (List.getElem?_eq_some_iff.mp found).1
  | next =>
    rw [Collection.use, nextWith_ok_iff]
    simp [CollectionUse.Applies]
  | nextWith read => exact nextWith_ok_iff
  | reset | count | toValue => simp [Collection.use, CollectionUse.Applies]

/-- A use that fails leaves the collection as it was. -/
theorem use_eq_of_fault {use : CollectionUse} {fault : Fault}
    (failed : (c.use use).1 = some fault) : (c.use use).2 = c := by
  have settled (result : Except Fault Collection) (failed : (c.settle result).1 = some fault) :
      (c.settle result).2 = c := by
    cases result with
    | ok changed => cases failed
    | error fault => rfl
  cases use with
  | push | insert | insertEntry | item | next | nextWith => exact settled _ failed
  | reset | count | toValue => cases failed

/-! ### What holds of every collection -/

/-- Entries have keys in dictionaries and nowhere else, members and keys are there once, and the
cursor is within the entries. -/
structure Valid (c : Collection) : Prop where
  keyed : ∀ entry ∈ c.entries, entry.key.isSome ↔ c.kind = .dict
  members : c.kind = .set → (c.entries.map Entry.value).Pairwise fun a b => a.same b = false
  keys : c.kind = .dict → c.keyList.Pairwise fun a b => a.same b = false
  cursor : c.cursor ≤ c.count

theorem map_value_addMember (entries : List Entry) (value : Value) :
    (addMember entries value).map Entry.value =
      Value.addDistinct (entries.map Entry.value) value := by
  unfold addMember Value.addDistinct
  rw [List.any_map]
  change _ = if entries.any (·.value.same value) then _ else _
  split
  · rfl
  · simp [Entry.item]

theorem nodup_addDistinct {items : List Value} (once : items.Nodup) (value : Value) :
    (Value.addDistinct items value).Nodup := by
  rw [← Value.distinct_of_nodup once, ← Value.distinct_concat]
  exact Value.nodup_distinct _

theorem filterMap_key (entries : List Entry) :
    entries.filterMap Entry.key = (entries.map Entry.key).filterMap id := by
  simp [List.filterMap_map]

/-- A key that is stored stays in its place or comes last as a new one. -/
theorem keyList_putEntry (key value : Value) (entries : List Entry) :
    (putEntry key value entries).filterMap Entry.key =
      Value.addDistinct (entries.filterMap Entry.key) key := by
  have listed : key ∈ entries.filterMap Entry.key ↔ some key ∈ entries.map Entry.key := by
    simp
  rw [filterMap_key, filterMap_key entries]
  rw [filterMap_key] at listed
  rcases keys_putEntry key value entries with ⟨known, keys⟩ | ⟨new, keys⟩
  · rw [keys, Value.addDistinct_of_mem (listed.mpr known)]
  · rw [keys, List.filterMap_append, Value.addDistinct_of_not_mem (mt listed.mp new)]
    rfl

theorem isSome_of_mem_putEntry {key value : Value} {entries : List Entry}
    (all : ∀ entry ∈ entries, entry.key.isSome) :
    ∀ entry ∈ putEntry key value entries, entry.key.isSome := by
  intro entry member
  have listed := List.mem_map_of_mem (f := Entry.key) member
  have old (known : entry.key ∈ entries.map Entry.key) : entry.key.isSome := by
    obtain ⟨other, there, same⟩ := List.mem_map.mp known
    rw [← same]
    exact all other there
  rcases keys_putEntry key value entries with ⟨_, keys⟩ | ⟨_, keys⟩
  · rw [keys] at listed
    exact old listed
  · rw [keys] at listed
    rcases List.mem_append.mp listed with known | new
    · exact old known
    · rw [List.mem_singleton.mp new]
      rfl

theorem length_le_addMember (entries : List Entry) (value : Value) :
    entries.length ≤ (addMember entries value).length := by
  unfold addMember
  split
  · exact le_rfl
  · simp

theorem length_le_putEntry (key value : Value) (entries : List Entry) :
    entries.length ≤ (putEntry key value entries).length := by
  induction entries with
  | nil => exact Nat.zero_le _
  | cons first entries ih =>
    unfold putEntry
    split
    · exact le_rfl
    · exact Nat.succ_le_succ ih

theorem Step.kind_eq (step : Step c after) : after.kind = c.kind := by
  cases step <;> rfl

theorem Step.isSealed_eq (step : Step c after) : after.isSealed = c.isSealed := by
  cases step <;> rfl

/-- Only builders are added to. -/
theorem Step.entries_eq_of_sealed (step : Step c after) (isSealed : c.isSealed) :
    after.entries = c.entries := by
  cases step with
  | kept | advanced | rewound => rfl
  | pushed value kind unsealed | inserted value kind unsealed | stored key value kind unsealed =>
    rw [unsealed] at isSealed
    cases isSealed

theorem Step.count_le (step : Step c after) : c.count ≤ after.count := by
  cases step with
  | kept | advanced | rewound => exact le_rfl
  | pushed value => simp [count]
  | inserted value => exact length_le_addMember c.entries value
  | stored key value => exact length_le_putEntry key value c.entries

/-- One step keeps what holds of every collection. -/
theorem Step.valid (step : Step c after) (valid : c.Valid) : after.Valid := by
  have grown := step.count_le
  cases step with
  | kept => exact valid
  | advanced more => exact ⟨valid.keyed, valid.members, valid.keys, more⟩
  | rewound => exact ⟨valid.keyed, valid.members, valid.keys, Nat.zero_le _⟩
  | pushed value kind =>
    refine ⟨fun entry member => ?_, fun set => ?_, fun dict => ?_, valid.cursor.trans grown⟩
    · rcases List.mem_append.mp member with old | new
      · exact valid.keyed entry old
      · rw [List.mem_singleton.mp new]
        simp [Entry.item, kind]
    · cases kind.symm.trans set
    · cases kind.symm.trans dict
  | inserted value kind =>
    have once := Value.pairwise_not_same_iff.mp (valid.members kind)
    refine ⟨fun entry member => ?_, fun _ => ?_, fun dict => ?_, valid.cursor.trans grown⟩
    · unfold addMember at member
      split at member
      · exact valid.keyed entry member
      · rcases List.mem_append.mp member with old | new
        · exact valid.keyed entry old
        · rw [List.mem_singleton.mp new]
          simp [Entry.item, kind]
    · rw [Value.pairwise_not_same_iff, map_value_addMember]
      exact nodup_addDistinct once value
    · cases kind.symm.trans dict
  | stored key value kind =>
    have all (entry : Entry) (member : entry ∈ c.entries) : entry.key.isSome :=
      (valid.keyed entry member).mpr kind
    have once := Value.pairwise_not_same_iff.mp (valid.keys kind)
    refine ⟨fun entry member => ?_, fun set => ?_, fun _ => ?_, valid.cursor.trans grown⟩
    · exact iff_of_true (isSome_of_mem_putEntry all entry member) kind
    · cases kind.symm.trans set
    · rw [Value.pairwise_not_same_iff, keyList, keyList_putEntry]
      exact nodup_addDistinct once key

/-! ### Where collections come from -/

/-- The collections that are handed out anew. -/
inductive Starts : Collection → Prop where
  | builder (kind : CollectionKind) : Starts (builder kind)
  | snapshot {value : Value} {ty : Ty} {c : Collection} (made : snapshot value ty = .ok c) :
      Starts c
  | untyped {value : Value} {c : Collection} (made : untypedSnapshot value = .ok c) : Starts c

/-- What a native collection holds as entries. -/
theorem entriesOf?_valid {value : Value} (found : entriesOf? value = some (c.kind, c.entries))
    (unread : c.cursor = 0) : c.Valid := by
  have cursor : c.cursor ≤ c.count := by omega
  cases value with
  | array items =>
    simp only [entriesOf?, Option.some.injEq, Prod.mk.injEq] at found
    obtain ⟨kind, entries⟩ := found
    refine ⟨fun entry member => ?_, fun set => ?_, fun dict => ?_, cursor⟩
    · rw [← entries] at member
      obtain ⟨item, _, rfl⟩ := List.mem_map.mp member
      simp [Entry.item, ← kind]
    · cases kind.trans set
    · cases kind.trans dict
  | set items =>
    simp only [entriesOf?, Option.some.injEq, Prod.mk.injEq] at found
    obtain ⟨kind, entries⟩ := found
    have distinct : c.entries = (Value.distinct items).map .item :=
      entries.symm.trans (Value.copyMembers_nil items)
    refine ⟨fun entry member => ?_, fun _ => ?_, fun dict => ?_, cursor⟩
    · rw [distinct] at member
      obtain ⟨item, _, rfl⟩ := List.mem_map.mp member
      simp [Entry.item, ← kind]
    · have values : c.entries.map Entry.value = Value.distinct items := by
        simp [distinct, Function.comp_def, Entry.item]
      rw [values, Value.pairwise_not_same_iff]
      exact Value.nodup_distinct items
    · cases kind.trans dict
  | dict pairs =>
    simp only [entriesOf?, Option.some.injEq, Prod.mk.injEq] at found
    obtain ⟨kind, entries⟩ := found
    have keys : c.entries.map Entry.key = (Value.distinct (pairs.map Prod.fst)).map some := by
      rw [← entries, copyPairs_nil_eq_putAll]
      exact keys_putAll pairs
    refine ⟨fun entry member => ?_, fun set => ?_, fun _ => ?_, cursor⟩
    · have listed := List.mem_map_of_mem (f := Entry.key) member
      rw [keys] at listed
      obtain ⟨key, _, same⟩ := List.mem_map.mp listed
      exact iff_of_true (by rw [← same]; rfl) kind.symm
    · cases kind.trans set
    · have values : c.keyList = Value.distinct (pairs.map Prod.fst) := by
        rw [keyList, filterMap_key, keys, List.filterMap_map]
        simp
      rw [values, Value.pairwise_not_same_iff]
      exact Value.nodup_distinct _
  | _ => cases found

theorem Starts.valid (start : c.Starts) : c.Valid := by
  cases start with
  | builder kind =>
    have none : (Collection.builder kind).entries = [] := rfl
    exact ⟨by simp [none], by simp [none], by simp [none, keyList], Nat.zero_le _⟩
  | snapshot made =>
    obtain ⟨found, _, unread, _⟩ := snapshot_eq_ok_iff.mp made
    exact entriesOf?_valid found unread
  | untyped made =>
    obtain ⟨found, _, unread, _⟩ := untypedSnapshot_eq_ok_iff.mp made
    exact entriesOf?_valid found unread

/-! ### The native value -/

theorem map_item_value {entries : List Entry} (plain : ∀ entry ∈ entries, entry.key = none) :
    (entries.map Entry.value).map .item = entries := by
  rw [List.map_map]
  conv_rhs => rw [← List.map_id entries]
  refine List.map_congr_left fun entry member => ?_
  obtain ⟨key, value⟩ := entry
  cases plain _ member
  rfl

theorem map_pairEntry {entries : List Entry} (keyed : ∀ entry ∈ entries, entry.key.isSome) :
    (entries.filterMap fun entry => entry.key.map (·, entry.value)).map pairEntry = entries := by
  induction entries with
  | nil => rfl
  | cons entry entries ih =>
    obtain ⟨key, value⟩ := entry
    obtain ⟨key, rfl⟩ := Option.isSome_iff_exists.mp (keyed ⟨key, value⟩ (by simp))
    have rest := ih fun entry member => keyed entry (by simp [member])
    simp [pairEntry, rest]

/-- Nothing is lost in the native value. -/
theorem Valid.toValue_entries (valid : c.Valid) : c.toValue.entries = c.entries := by
  unfold toValue
  cases kind : c.kind with
  | array | set =>
    refine map_item_value fun entry member => ?_
    have plain := valid.keyed entry member
    simp only [kind, reduceCtorEq, iff_false, Option.not_isSome_iff_eq_none] at plain
    exact plain
  | dict => exact map_pairEntry fun entry member => (valid.keyed entry member).mpr kind

/-- A copy of the native value has the entries of the collection. -/
theorem Valid.entriesOf?_toValue (valid : c.Valid) :
    entriesOf? c.toValue = some (c.kind, c.entries) := by
  have whole := valid.toValue_entries
  unfold toValue at whole ⊢
  cases kind : c.kind with
  | array =>
    simp only [kind, Value.entries] at whole
    simp only [entriesOf?, whole]
  | set =>
    have once := Value.pairwise_not_same_iff.mp (valid.members kind)
    simp only [kind, Value.entries] at whole
    simp only [entriesOf?, Value.copyMembers_nil, Value.distinct_of_nodup once, whole]
  | dict =>
    have keys := valid.keys kind
    simp only [kind, Value.entries] at whole
    have apart : ((c.entries.filterMap fun entry => entry.key.map (·, entry.value)).map
        Prod.fst).Pairwise fun a b => a.same b = false := by
      simpa [keyList, List.map_filterMap, Function.comp_def] using keys
    simp only [entriesOf?, copyPairs_nil apart, whole]

/-! ### Uses in any order -/

theorem useAll_concat (c : Collection) (uses : List CollectionUse) (use : CollectionUse) :
    c.useAll (uses ++ [use]) = ((c.useAll uses).use use).2 := by
  simp [useAll]

/-- What steps keep holds after any uses. -/
theorem useAll_induction {P : Collection → Prop}
    (keeps : ∀ {c after : Collection}, Step c after → P c → P after) (start : P c)
    (uses : List CollectionUse) : P (c.useAll uses) := by
  induction uses using List.reverseRecOn with
  | nil => exact start
  | append_singleton uses use ih =>
    rw [useAll_concat]
    exact keeps (step_use _ use) ih

theorem useAll_valid (valid : c.Valid) (uses : List CollectionUse) : (c.useAll uses).Valid :=
  useAll_induction Step.valid valid uses

theorem useAll_kind (c : Collection) (uses : List CollectionUse) :
    (c.useAll uses).kind = c.kind :=
  useAll_induction (P := fun after => after.kind = c.kind)
    (fun step same => step.kind_eq.trans same) rfl uses

theorem useAll_isSealed (c : Collection) (uses : List CollectionUse) :
    (c.useAll uses).isSealed = c.isSealed :=
  useAll_induction (P := fun after => after.isSealed = c.isSealed)
    (fun step same => step.isSealed_eq.trans same) rfl uses

theorem useAll_entries_of_sealed (isSealed : c.isSealed) (uses : List CollectionUse) :
    (c.useAll uses).entries = c.entries := by
  have both := useAll_induction (P := fun after => after.isSealed ∧ after.entries = c.entries)
    (fun step ⟨isSealed, same⟩ => ⟨step.isSealed_eq.trans isSealed,
      (step.entries_eq_of_sealed isSealed).trans same⟩) ⟨isSealed, rfl⟩ uses
  exact both.2

/-- What uses put into a builder of a kind, with its repetitions. -/
def given (kind : CollectionKind) (uses : List CollectionUse) : Value :=
  match kind with
  | .array => .array (uses.filterMap CollectionUse.pushed?)
  | .set => .set (uses.filterMap CollectionUse.member?)
  | .dict => .dict (uses.filterMap CollectionUse.pair?)

theorem nextWith_entries {α : Type} (c : Collection) (read : Entry → Except Fault α) :
    (c.settle ((c.nextWith read).map Prod.snd)).2.entries = c.entries := by
  unfold nextWith
  cases c.current? with
  | none => rfl
  | some entry => cases taken : read entry <;> simp only [taken] <;> rfl

theorem entries_use (unsealed : c.isSealed = false) (use : CollectionUse) :
    (c.use use).2.entries = use.adds c.kind c.entries := by
  cases use with
  | push value | insert value | insertEntry key value =>
    simp only [Collection.use, push, insert, insertEntry, checkWritable, CollectionUse.adds,
      unsealed, Bool.false_eq_true, if_false]
    split <;> simp_all [settle, Except.map]
  | item index =>
    simp only [Collection.use, CollectionUse.adds]
    cases c.item index <;> rfl
  | next => exact c.nextWith_entries _
  | nextWith read => exact c.nextWith_entries read
  | reset | count | toValue => rfl

/-- A builder holds what a copy of all that was put into it holds, whatever else was done to it. -/
theorem entriesOf?_given (kind : CollectionKind) (uses : List CollectionUse) :
    entriesOf? (given kind uses) = some (kind, ((builder kind).useAll uses).entries) := by
  induction uses using List.reverseRecOn with
  | nil => cases kind <;> rfl
  | append_singleton uses use ih =>
    have same : ((builder kind).useAll uses).kind = kind := useAll_kind (builder kind) uses
    have unsealed : ((builder kind).useAll uses).isSealed = false :=
      useAll_isSealed (builder kind) uses
    rw [useAll_concat, entries_use unsealed, same]
    cases kind with
    | array =>
      simp only [given, entriesOf?, Option.some.injEq, Prod.mk.injEq, true_and] at ih ⊢
      rw [List.filterMap_append, List.map_append, ih]
      cases use <;> simp [CollectionUse.pushed?, CollectionUse.adds]
    | set =>
      simp only [given, entriesOf?, copyMembers_eq_foldl, Option.some.injEq, Prod.mk.injEq,
        true_and] at ih ⊢
      rw [List.filterMap_append, List.foldl_append, ih]
      cases use <;> rfl
    | dict =>
      simp only [given, entriesOf?, copyPairs_eq_foldl, Option.some.injEq, Prod.mk.injEq,
        true_and] at ih ⊢
      rw [List.filterMap_append, List.foldl_append, ih]
      cases use <;> rfl

/-- A dictionary builder holds and spells out what is left of the pairs that were stored in it. -/
theorem toValue_dict_builder (uses : List CollectionUse) :
    ∃ pairs, ((builder .dict).useAll uses).toValue = .dict pairs ∧
      pairs.map pairEntry = ((builder .dict).useAll uses).entries ∧
      LastWins (uses.filterMap CollectionUse.pair?) pairs := by
  have valid := useAll_valid (Starts.builder .dict).valid uses
  have kind : ((builder .dict).useAll uses).kind = .dict := useAll_kind (builder .dict) uses
  have whole := valid.toValue_entries
  have stored := entriesOf?_given .dict uses
  simp only [given, entriesOf?, copyPairs_nil_eq_putAll, Option.some.injEq, Prod.mk.injEq,
    true_and] at stored
  simp only [toValue, kind, Value.entries] at whole ⊢
  exact ⟨_, rfl, whole, lastWins_of_putAll (whole.trans stored.symm)⟩

theorem kindName_toValue (c : Collection) : c.toValue.kindName = c.kind.name := by
  unfold toValue
  cases c.kind <;> rfl

/-- Whatever is done to a collection, in any order, its entries are as its kind asks for and the
cursor is within them. The native value spells them all out. A sealed collection keeps its entries,
and a failure keeps entries and cursor. A dictionary that was built has each key at its first place
and with its last value. -/
theorem collection_invariant {c : Collection} (start : c.Starts) (uses : List CollectionUse) :
    let now := c.useAll uses
    now.Valid ∧
    (now.toValue.kindName = now.kind.name ∧ now.toValue.entries = now.entries ∧
      now.toValue.entries.length = now.count) ∧
    (now.isSealed → ∀ more, (now.useAll more).entries = now.entries) ∧
    (∀ use, ((now.use use).1 = none ↔ use.Applies now) ∧
      ((now.use use).1 ≠ none →
        (now.use use).2.entries = now.entries ∧ (now.use use).2.cursor = now.cursor)) ∧
    (c = builder .dict → ∃ pairs, now.toValue = .dict pairs ∧
      LastWins (uses.filterMap CollectionUse.pair?) pairs) := by
  intro now
  have valid : now.Valid := useAll_valid start.valid uses
  refine ⟨valid, ⟨kindName_toValue now, valid.toValue_entries, ?_⟩, useAll_entries_of_sealed,
    fun use => ⟨use_ok_iff use, fun failed => ?_⟩, ?_⟩
  · rw [valid.toValue_entries]
    rfl
  · obtain ⟨fault, failed⟩ := Option.ne_none_iff_exists'.mp failed
    rw [use_eq_of_fault failed]
    exact ⟨rfl, rfl⟩
  · rintro rfl
    obtain ⟨pairs, value, _, last⟩ := toValue_dict_builder uses
    exact ⟨pairs, value, last⟩

/-- A key is stored once more after the first entry was visited and a reader of the second one
failed. -/
theorem stored_under_cursor :
    let refuse (_ : Entry) : Except Fault Unit := .error (.domain .notCollectionType)
    let uses : List CollectionUse := [.insertEntry (.str "b") (.i32 1), .next,
      .insertEntry (.str "a") (.i32 2), .nextWith refuse, .insertEntry (.str "b") (.i32 3)]
    let now := (builder .dict).useAll uses
    now.toValue = .dict [(.str "b", .i32 3), (.str "a", .i32 2)] ∧ now.cursor = 1 ∧
      LastWins (uses.filterMap CollectionUse.pair?) [(.str "b", .i32 3), (.str "a", .i32 2)] := by
  intro refuse uses now
  have value : now.toValue = .dict [(.str "b", .i32 3), (.str "a", .i32 2)] := by
    rfl
  refine ⟨value, rfl, ?_⟩
  obtain ⟨_, _, _, _, built⟩ := collection_invariant (.builder .dict) uses
  obtain ⟨pairs, same, last⟩ := built rfl
  cases value.symm.trans same
  exact last

/-! ### Copies and builders -/

/-- Every copy of a value that can be made, with or without declared types, is of a kind and has
certain entries. -/
structure CopiesAs (value : Value) (kind : CollectionKind) (entries : List Entry) : Prop where
  untyped : ∃ c, untypedSnapshot value = .ok c ∧ c.kind = kind ∧ c.entries = entries
  typed : ∀ ty keyTy elemTy, declared? ty = some (kind, keyTy, elemTy) →
    ∃ c, snapshot value ty = .ok c ∧ c.kind = kind ∧ c.entries = entries

theorem copiesAs_of_entriesOf? {value : Value} {kind : CollectionKind} {entries : List Entry}
    (found : entriesOf? value = some (kind, entries)) : CopiesAs value kind entries where
  untyped :=
    ⟨{ kind, isSealed := true, entries },
      untypedSnapshot_eq_ok_iff.mpr ⟨found, rfl, rfl, rfl, rfl⟩, rfl, rfl⟩
  typed _ keyTy elemTy declared :=
    ⟨{ kind, keyTy, elemTy := some elemTy, isSealed := true, entries },
      snapshot_eq_ok_iff.mpr ⟨found, rfl, rfl, elemTy, declared, rfl⟩, rfl, rfl⟩

theorem entriesOf?_set (items : List Value) :
    entriesOf? (.set items) = some (.set, (items.eraseDupsBy Value.same).map .item) := by
  rw [entriesOf?, Value.copyMembers_nil, Value.distinct_eq]

/-- Copies of a value have the entries of a builder into which its content is put in order, and
these are the content without its repetitions. The native value of any collection is copied to the
entries of that collection. -/
theorem copies_as_built :
    (∀ items, let built := ((builder .array).useAll (items.map .push)).entries
      CopiesAs (.array items) .array built ∧ built = items.map .item) ∧
    (∀ items, let built := ((builder .set).useAll (items.map .insert)).entries
      CopiesAs (.set items) .set built ∧ built = (items.eraseDupsBy Value.same).map .item) ∧
    (∀ pairs, let built := ((builder .dict).useAll
          (pairs.map fun pair => .insertEntry pair.1 pair.2)).entries
      CopiesAs (.dict pairs) .dict built ∧ ∃ left, built = left.map pairEntry ∧
        LastWins pairs left) ∧
    (∀ c : Collection, c.Starts → ∀ uses, let now := c.useAll uses
      CopiesAs now.toValue now.kind now.entries) := by
  refine ⟨fun items => ?_, fun items => ?_, fun pairs => ?_, fun c start uses => ?_⟩
  · have put : given .array (items.map .push) = .array items := by
      simp [given, List.filterMap_map, Function.comp_def, CollectionUse.pushed?]
    have found := entriesOf?_given .array (items.map .push)
    rw [put] at found
    exact ⟨copiesAs_of_entriesOf? found, (Prod.mk.inj (Option.some.inj found)).2.symm⟩
  · have put : given .set (items.map .insert) = .set items := by
      simp [given, List.filterMap_map, Function.comp_def, CollectionUse.member?]
    have found := entriesOf?_given .set (items.map .insert)
    rw [put] at found
    refine ⟨copiesAs_of_entriesOf? found, ?_⟩
    rw [entriesOf?_set] at found
    exact (Prod.mk.inj (Option.some.inj found)).2.symm
  · have put : (pairs.map fun pair => CollectionUse.insertEntry pair.1 pair.2).filterMap
        CollectionUse.pair? = pairs := by
      simp [List.filterMap_map, Function.comp_def, CollectionUse.pair?]
    have found := entriesOf?_given .dict (pairs.map fun pair => .insertEntry pair.1 pair.2)
    obtain ⟨left, _, held, last⟩ :=
      toValue_dict_builder (pairs.map fun pair => .insertEntry pair.1 pair.2)
    rw [given, put] at found
    rw [put] at last
    exact ⟨copiesAs_of_entriesOf? found, left, held.symm, last⟩
  · exact copiesAs_of_entriesOf? (useAll_valid start.valid uses).entriesOf?_toValue

end Collection

end ObjectBoundary
