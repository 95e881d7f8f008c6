import ObjectBoundary.Proofs.Conversion
import ObjectBoundary.Proofs.Filling
import ObjectBoundary.Proofs.Text.Map

/-!
# Dictionaries of texts

A caller makes a dictionary and stores texts under texts, one call after another. It then holds what
is left of them, whatever else was called in between. As a dictionary of texts it comes in whole; a
single key or value that is no text keeps it out.
-/

namespace ObjectBoundary

open Op State

def Value.textPair (pair : String × String) : Value × Value := (.str pair.1, .str pair.2)

theorem Value.textPair_injective : Function.Injective Value.textPair := by
  rintro ⟨key, value⟩ ⟨key', value'⟩ same
  cases same
  rfl

def Entry.ofTexts (pair : String × String) : Entry := Collection.pairEntry (Value.textPair pair)

/-! ### What is left of the texts -/

namespace Collection

variable {c : Collection} {key value : String} {left given : List (String × String)}

theorem find?_textPair (key : String) (pairs : List (String × String)) :
    ((pairs.map Value.textPair).find? (·.1.same (.str key))).map Prod.snd =
      (pairs.lookup key).map .str := by
  induction pairs with
  | nil => rfl
  | cons pair pairs ih =>
    have same : (Value.textPair pair).1.same (.str key) = (key == pair.1) := by
      rw [Value.textPair, Value.same]
      exact BEq.comm
    rw [List.map_cons, List.find?_cons, List.lookup_cons, same]
    cases key == pair.1 with
    | true => rfl
    | false => exact ih

theorem exists_putEntry_texts (key value : String) (left : List (String × String)) :
    ∃ left' : List (String × String), putEntry (.str key) (.str value) (left.map Entry.ofTexts) =
      left'.map Entry.ofTexts := by
  induction left with
  | nil => exact ⟨[(key, value)], rfl⟩
  | cons pair left ih =>
    obtain ⟨left', same⟩ := ih
    rw [List.map_cons, putEntry]
    split
    · exact ⟨(pair.1, value) :: left, rfl⟩
    · exact ⟨pair :: left', by rw [same]; rfl⟩

theorem exists_putAll_texts (given : List (String × String)) :
    ∃ left : List (String × String),
      putAll (given.map Value.textPair) = left.map Entry.ofTexts := by
  induction given using List.reverseRecOn with
  | nil => exact ⟨[], rfl⟩
  | append_singleton given pair ih =>
    obtain ⟨left, same⟩ := ih
    rw [List.map_append, List.map_singleton, putAll_concat, same]
    exact exists_putEntry_texts pair.1 pair.2 left

/-- Looking up what is left of texts gives the texts that were stored last. -/
theorem lookup_left (stored : putAll (given.map Value.textPair) = left.map Entry.ofTexts)
    (key : String) :
    left.reverse.lookup key = given.reverse.lookup key := by
  have wins : LastWins (given.map Value.textPair) (left.map Value.textPair) :=
    lastWins_of_putAll (by rw [stored, List.map_map]; rfl)
  have keys := wins.keys
  have values := wins.values (.str key)
  rw [← Value.distinct_eq] at keys
  rw [← List.map_reverse, find?_textPair, find?_textPair] at values
  have once : (left.map Prod.fst).Nodup := by
    have once := Value.nodup_distinct ((given.map Value.textPair).map Prod.fst)
    rw [← keys, List.map_map] at once
    refine List.Nodup.of_map Value.str ?_
    rwa [List.map_map]
  rw [lookup_reverse once]
  exact Option.map_injective (fun _ _ same => Value.str.inj same) values

/-- A dictionary in which texts were stored under texts. -/
def ofPairs (pairs : List (String × String)) : Collection :=
  { kind := .dict, entries := putAll (pairs.map Value.textPair) }

theorem ofPairs_concat (pairs : List (String × String)) (key value : String) :
    { ofPairs pairs with entries := putEntry (.str key) (.str value) (ofPairs pairs).entries } =
      ofPairs (pairs ++ [(key, value)]) := by
  simp only [ofPairs, List.map_append, List.map_singleton, putAll_concat]
  rfl

theorem refs_of_texts (entries_eq : c.entries = left.map Entry.ofTexts) : c.refs = [] := by
  rw [refs, entries_eq, List.flatMap_map, List.flatMap_eq_nil_iff]
  exact fun _ _ => rfl

theorem refs_ofPairs (pairs : List (String × String)) : (ofPairs pairs).refs = [] := by
  obtain ⟨left, stored⟩ := exists_putAll_texts pairs
  exact refs_of_texts stored

theorem toValue_of_texts (kind_eq : c.kind = .dict)
    (entries_eq : c.entries = left.map Entry.ofTexts) :
    c.toValue = .dict (left.map Value.textPair) := by
  rw [toValue, kind_eq, entries_eq, List.filterMap_map]
  exact congrArg Value.dict (congrFun List.filterMap_eq_map left)

end Collection

/-! ### What comes in -/

namespace Registry

variable {r : Registry} {key value : Value} {entries : List (Value × Value)}

theorem hasType_texts (left : List (String × String)) :
    r.HasType (.dict .string .string) (.dict (left.map Value.textPair)) := by
  refine .dict (fun entry member => ?_) fun entry member => ?_
  all_goals
    obtain ⟨pair, _, rfl⟩ := List.mem_map.mp member
    exact .str _

theorem conform_string_error {fault : Fault} (failed : r.conform .string value = .error fault) :
    ∃ wanted found, fault = .typeMismatch wanted found := by
  cases value <;> cases failed <;> exact ⟨_, _, rfl⟩

/-- A dictionary with a key or a value that is no text is refused as one of another type. -/
theorem conform_texts_of_other (member : (key, value) ∈ entries)
    (other : ∀ pair, (key, value) ≠ Value.textPair pair) :
    ∃ wanted found, r.conform (.dict .string .string) (.dict entries) =
      .error (.typeMismatch wanted found) := by
  cases converted : r.conform (.dict .string .string) (.dict entries) with
  | ok made =>
    obtain ⟨_, pairs, same, all, _⟩ := conform_eq_ok_iff.mp converted
    cases same
    obtain ⟨pair, _, ⟨first, isKey, _⟩, second, isValue, _⟩ := mem_left_of_forall₂ all member
    exact absurd (Prod.ext isKey isValue) (other (first, second))
  | error fault =>
    obtain ⟨entry, _, failed⟩ := exists_of_mapM_error (map_eq_error converted)
    have mismatch : ∃ wanted found, fault = .typeMismatch wanted found := by
      rcases bind_eq_error failed with failed | ⟨_, _, failed⟩
      · exact conform_string_error failed
      · rcases bind_eq_error failed with failed | ⟨_, _, failed⟩
        · exact conform_string_error failed
        · cases failed
    obtain ⟨wanted, found, rfl⟩ := mismatch
    exact ⟨wanted, found, rfl⟩

end Registry

namespace State

variable {s t : State} {h : Handle} {dict ref : Ref} {c : Collection} {p : Payload}
  {pairs : List (String × String)}

/-- A collection comes in as what its content converts to, or not at all. -/
theorem run_inbound_collection {ty : Ty} (sound : s.Sound) (bound : s.handles.bound? h = some ref)
    (held : s.heap.payloadAt ref.number = some (.collection c))
    (tagged : ty.tag? = some c.kind.tag) :
    s.run (inbound (.handle h) ty) =
      ((s.registry.conform ty c.toValue).mapError .fault, s) := by
  have tag_eq : ref.tag = c.kind.tag := (sound.heap.fits_of_holds (sound.has bound) held).1
  have resolved : s.handles.resolve h (some c.kind.tag) = .ok ref :=
    HandleTable.resolve_eq_ok_iff.mpr ⟨bound, fun tag same => by cases same; exact tag_eq⟩
  rw [run_inbound_handle tagged, run_bind, run_resolve, resolved]
  exact run_typedContentOf_collection tag_eq held ty

/-! ### Filling a dictionary -/

/-- A dictionary that a caller has made, and the texts that have been stored in it since then, one
call after another. Calls about other objects may come in between, and the surroundings may change.
-/
inductive Filled (dict : Ref) : List (String × String) → State → Prop where
  | make {s : State} (reachable : s.Reachable) (thread : Nat) {d : Handle}
      (cleared : ((s.perform thread (.newCollection .dict)).2.lastErrors thread).code = .none)
      (answered : (s.perform thread (.newCollection .dict)).1.reply = .handle d)
      (bound : (s.perform thread (.newCollection .dict)).2.handles.bound? d = some dict) :
      Filled dict [] (s.perform thread (.newCollection .dict)).2
  | store {pairs : List (String × String)} {s : State} (filled : Filled dict pairs s)
      (thread : Nat) {d k v : Handle} {key value : String}
      (bound : s.handles.bound? d = some dict) (key_eq : s.Spells k key)
      (value_eq : s.Spells v value) :
      Filled dict (pairs ++ [(key, value)])
        (s.perform thread (.insertEntry d (.handle k) (.handle v))).2
  | beside {pairs : List (String × String)} {s t : State} (filled : Filled dict pairs s)
      (beside : s.LeadsBeside dict.number t) : Filled dict pairs t

namespace Filled

theorem reachable (filled : Filled dict pairs s) : s.Reachable := by
  induction filled with
  | make reachable thread cleared answered bound =>
    exact reachable.step (.call thread (.of_symbol "idlbridge_dict_new" [] rfl))
  | store filled thread bound key_eq value_eq ih =>
    exact ih.step (.call thread
      (.of_symbol "idlbridge_dict_insert" [.handle _, .wire _, .wire _] rfl))
  | beside filled beside ih => exact Leads.trans ih beside.leads

/-- As long as it is there, the dictionary is exactly what was stored. -/
theorem payload (filled : Filled dict pairs s) :
    dict.number < s.heap.objects.length ∧
      ∀ p, s.heap.payloadAt dict.number = some p → p = .collection (.ofPairs pairs) := by
  induction filled with
  | @make s reachable thread d cleared answered bound =>
    obtain ⟨_, d', t, made_eq, _, ref, bound', _, held⟩ | ⟨_, failed⟩ :=
      perform_newCollection reachable.sound .dict thread
    case inr => exact absurd cleared failed
    rw [made_eq] at answered bound ⊢
    cases answered
    cases bound'.symm.trans bound
    refine ⟨Heap.lt_length_of_payloadAt held, fun p held' => ?_⟩
    exact Option.some.inj (held'.symm.trans held)
  | @store pairs s filled thread d k v key value bound key_eq value_eq ih =>
    have sound := filled.reachable.sound
    obtain ⟨p, held⟩ := (sound.holds_bound bound).payload
    cases ih.2 p held
    have tag_eq := (sound.heap.fits_of_holds (sound.has bound) held).1
    have unowned := Collection.refs_ofPairs (pairs ++ [(key, value)])
    have fits : (Payload.collection (.ofPairs (pairs ++ [(key, value)]))).Fits dict.tag :=
      ⟨tag_eq, fun _ member => by rw [unowned] at member; cases member⟩
    obtain ⟨_, held'⟩ := sound.afterReplace bound fits
      (fun _ (member : _ ∈ Collection.refs _) => by rw [unowned] at member; cases member) thread
    rw [perform_insertEntry sound bound held rfl rfl key_eq value_eq thread,
      Collection.ofPairs_concat]
    exact ⟨Heap.lt_length_of_payloadAt held', fun p same =>
      Option.some.inj (same.symm.trans held')⟩
  | @beside pairs s t filled beside ih =>
    have later := (beside.leads.advanced filled.reachable.sound).later
    exact ⟨Nat.lt_of_lt_of_le ih.1 later.length_le, fun p held =>
      ih.2 p (beside.payloadAt_of_lt filled.reachable ih.1 held)⟩

/-- Behind a live handle is a dictionary of what is left of the texts. -/
theorem exists_texts (filled : Filled dict pairs s) (bound : s.handles.bound? h = some dict) :
    ∃ (c : Collection) (left : List (String × String)),
      s.heap.payloadAt dict.number = some (.collection c) ∧ c.kind = .dict ∧
      c.entries = left.map Entry.ofTexts ∧
      ∀ key, left.reverse.lookup key = pairs.reverse.lookup key := by
  obtain ⟨p, held⟩ := (filled.reachable.sound.holds_bound bound).payload
  cases filled.payload.2 p held
  obtain ⟨left, stored⟩ := Collection.exists_putAll_texts pairs
  exact ⟨_, left, held, rfl, stored, Collection.lookup_left stored⟩

end Filled

end State

end ObjectBoundary
