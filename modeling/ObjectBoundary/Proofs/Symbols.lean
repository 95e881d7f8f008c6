import Mathlib.Data.Set.Pairwise.List
import ObjectBoundary.Proofs.Model.Growth
import ObjectBoundary.Symbol

/-!
# The names of exported symbols

The name of a symbol is that of its owner, an underscore and an entry. The rules for models compare
the bare names of members, so two symbols of a model that is loaded can have the same name: when an
accessor is spelled like a method or like another accessor, or when the name of one owner continues
that of another with an underscore. These are the only ways, and the names of the symbols are
distinct exactly when none of them occurs.
-/

namespace ObjectBoundary

/-! ### Owners and entries -/

/-- The symbols of one owner: an interface, or a part of a namespace. -/
structure Exports where
  owner : String
  entries : List String

namespace Exports

variable {a b : Exports}

def names (a : Exports) : List String := a.entries.map fun entry => a.owner ++ "_" ++ entry

/-- The name of the second owner continues that of the first one, and so does an entry. -/
def Continues (a b : Exports) : Prop :=
  ∃ w, b.owner = a.owner ++ "_" ++ w ∧ ∃ entry ∈ b.entries, w ++ "_" ++ entry ∈ a.entries

/-- Two owners have a symbol of the same name. -/
def Clashes (a b : Exports) : Prop :=
  a.owner = b.owner ∧ (∃ entry ∈ a.entries, entry ∈ b.entries) ∨ a.Continues b ∨ b.Continues a

theorem Clashes.symm (clash : a.Clashes b) : b.Clashes a := by
  rcases clash with ⟨owner, entry, first, second⟩ | continues | continues
  · exact .inl ⟨owner.symm, entry, second, first⟩
  · exact .inr (.inr continues)
  · exact .inr (.inl continues)

/-- A name with an underscore can be cut at more than one. -/
theorem joined_eq_iff (a s b t : String) :
    a ++ "_" ++ s = b ++ "_" ++ t ↔
      a = b ∧ s = t ∨ (∃ w, b = a ++ "_" ++ w ∧ s = w ++ "_" ++ t) ∨
        ∃ w, a = b ++ "_" ++ w ∧ t = w ++ "_" ++ s := by
  constructor
  · intro same
    have chars : a.toList ++ '_' :: s.toList = b.toList ++ '_' :: t.toList := by
      simpa using congrArg String.toList same
    rcases List.append_eq_append_iff.mp chars with ⟨rest, front, back⟩ | ⟨rest, front, back⟩
    · cases rest with
      | nil =>
        left
        constructor
        · exact (String.toList_inj.mp (by simpa using front)).symm
        · exact String.toList_inj.mp (by simpa using back)
      | cons c w =>
        obtain ⟨rfl, back⟩ := List.cons.inj back
        right; left
        exact ⟨String.ofList w, String.toList_inj.mp (by simpa using front),
          String.toList_inj.mp (by simpa using back)⟩
    · cases rest with
      | nil =>
        left
        constructor
        · exact String.toList_inj.mp (by simpa using front)
        · exact (String.toList_inj.mp (by simpa using back)).symm
      | cons c w =>
        obtain ⟨rfl, back⟩ := List.cons.inj back
        right; right
        exact ⟨String.ofList w, String.toList_inj.mp (by simpa using front),
          String.toList_inj.mp (by simpa using back)⟩
  · rintro (⟨rfl, rfl⟩ | ⟨w, rfl, rfl⟩ | ⟨w, rfl, rfl⟩)
    · rfl
    · simp only [String.append_assoc]
    · simp only [String.append_assoc]

theorem names_nodup_iff : a.names.Nodup ↔ a.entries.Nodup := by
  refine List.nodup_map_iff fun s t same => ?_
  simpa using same

theorem disjoint_names_iff : List.Disjoint a.names b.names ↔ ¬ a.Clashes b := by
  rw [List.disjoint_iff_ne]
  constructor
  · intro apart clash
    have meet {s t : String} (hs : s ∈ a.entries) (ht : t ∈ b.entries)
        (same : a.owner ++ "_" ++ s = b.owner ++ "_" ++ t) : False :=
      apart _ (List.mem_map.mpr ⟨s, hs, rfl⟩) _ (List.mem_map.mpr ⟨t, ht, rfl⟩) same
    rcases clash with ⟨owner, s, hs, ht⟩ | ⟨w, owner, t, ht, hs⟩ | ⟨w, owner, s, hs, ht⟩
    · exact meet hs ht ((joined_eq_iff ..).mpr (.inl ⟨owner, rfl⟩))
    · exact meet hs ht ((joined_eq_iff ..).mpr (.inr (.inl ⟨w, owner, rfl⟩)))
    · exact meet hs ht ((joined_eq_iff ..).mpr (.inr (.inr ⟨w, owner, rfl⟩)))
  · intro clear _ hx _ hy same
    obtain ⟨s, hs, rfl⟩ := List.mem_map.mp hx
    obtain ⟨t, ht, rfl⟩ := List.mem_map.mp hy
    rcases (joined_eq_iff ..).mp same with ⟨owner, rfl⟩ | ⟨w, owner, rfl⟩ | ⟨w, owner, rfl⟩
    · exact clear (.inl ⟨owner, s, hs, ht⟩)
    · exact clear (.inr (.inl ⟨w, owner, t, ht, hs⟩))
    · exact clear (.inr (.inr ⟨w, owner, s, hs, ht⟩))

/-- The names of several owners are distinct when each has distinct entries and no two clash. -/
theorem flatMap_names_nodup_iff (owners : List Exports) :
    (owners.flatMap names).Nodup ↔
      (∀ a ∈ owners, a.entries.Nodup) ∧ owners.Pairwise fun a b => ¬ a.Clashes b := by
  rw [List.nodup_flatMap]
  simp only [names_nodup_iff]
  refine and_congr_right fun _ => ?_
  constructor
  · exact fun h => h.imp fun {a b} apart => disjoint_names_iff.mp apart
  · exact fun h => h.imp fun {a b} clear => disjoint_names_iff.mpr clear

end Exports

/-! ### Accessors -/

/-- The functions that a property can have. -/
inductive Accessor where
  | get
  | set
  | count
  | item
  | clear
  | add
  deriving DecidableEq

namespace Accessor

def verb : Accessor → String
  | get | count | item => "Get"
  | set | clear | add => "Set"

def ending : Accessor → String
  | get | set => ""
  | count => "_Count"
  | item => "_Item"
  | clear => "_Clear"
  | add => "_Add"

/-- The accessor of the whole property with the same verb. -/
def whole : Accessor → Accessor
  | get | count | item => get
  | set | clear | add => set

def entry (x : Accessor) (name : String) : String := x.verb ++ name ++ x.ending

end Accessor

def Property.accessors (p : Property) : List Accessor :=
  let whole := .get :: if p.readOnly then [] else [.set]
  match p.ty with
  | .array _ => whole ++ [.count, .item] ++ if p.readOnly then [] else [.clear, .add]
  | _ => whole

def Property.entries (p : Property) : List String := p.accessors.map (·.entry p.name)

namespace InterfaceDescriptor

def lifecycle : List String := ["Create", "AddRef", "Release"]

def exports (d : InterfaceDescriptor) : Exports :=
  ⟨d.name, lifecycle ++ d.properties.flatMap (·.entries) ++ d.methods.map (·.name)⟩

end InterfaceDescriptor

namespace Symbol

theorem names_ofProperty (r : Registry) (space interface : String) (p : Property) :
    (ofProperty r space interface p).map (·.name) =
      p.entries.map fun entry => interface ++ "_" ++ entry := by
  have getter (x : String) : "_" ++ ("Get" ++ x) = "_Get" ++ x := (String.append_assoc ..).symm
  have setter (x : String) : "_" ++ ("Set" ++ x) = "_Set" ++ x := (String.append_assoc ..).symm
  unfold ofProperty Property.entries Property.accessors
  cases p.ty <;> cases p.readOnly <;>
    simp [Accessor.entry, Accessor.verb, Accessor.ending, String.append_assoc, getter, setter]

theorem names_ofInterface (r : Registry) (space : String) (d : InterfaceDescriptor) :
    (ofInterface r space d).map (·.name) = d.exports.names := by
  simp only [ofInterface, InterfaceDescriptor.exports, Exports.names, List.map_append,
    List.map_flatMap, names_ofProperty, List.map_map]
  congr 2
  simp [InterfaceDescriptor.lifecycle, String.append_assoc]

end Symbol

/-! ### Entries of an interface -/

namespace Accessor

variable {x y : Accessor} {name other : String}

/-- The endings of helpers differ in their last letters. -/
theorem eq_of_getLast?_ending (hx : x.whole ≠ x) (hy : y.whole ≠ y)
    (same : x.ending.toList.getLast? = y.ending.toList.getLast?) : x = y := by
  cases x <;> cases y <;> revert hx hy same <;> decide

theorem ending_ne_nil (hx : x.whole ≠ x) : x.ending.toList ≠ [] := by
  cases x <;> revert hx <;> decide

theorem ending_whole (x : Accessor) : x.whole.ending = "" := by
  cases x <;> rfl

theorem verb_whole (x : Accessor) : x.whole.verb = x.verb := by
  cases x <;> rfl

theorem whole_eq_of_verb (same : x.verb = y.verb) : x.whole = y.whole := by
  cases x <;> cases y <;> revert same <;> decide

theorem length_verb (x : Accessor) : x.verb.toList.length = 3 := by
  cases x <;> rfl

/-- Two accessors have the same entry when they are the same, or when the name of one property is
that of the other one with the ending of a helper. -/
theorem entry_eq_iff :
    x.entry name = y.entry other ↔
      x = y ∧ name = other ∨
        x = y.whole ∧ y.whole ≠ y ∧ name = other ++ y.ending ∨
        y = x.whole ∧ x.whole ≠ x ∧ other = name ++ x.ending := by
  constructor
  · intro same
    have chars : x.verb.toList ++ (name.toList ++ x.ending.toList) =
        y.verb.toList ++ (other.toList ++ y.ending.toList) := by
      simpa [entry] using congrArg String.toList same
    obtain ⟨verb, rest⟩ := List.append_inj chars (by rw [length_verb, length_verb])
    have wholes : x.whole = y.whole := whole_eq_of_verb (String.toList_inj.mp verb)
    by_cases hx : x.whole = x
    · have bare : x.ending = "" := by rw [← hx, ending_whole]
      have extended : name = other ++ y.ending := by
        rw [bare] at rest
        exact String.toList_inj.mp (by simpa using rest)
      by_cases hy : y.whole = y
      · have bare' : y.ending = "" := by rw [← hy, ending_whole]
        left
        exact ⟨by rw [← hx, wholes, hy], by simpa [bare'] using extended⟩
      · right; left
        exact ⟨by rw [← hx, wholes], hy, extended⟩
    · by_cases hy : y.whole = y
      · have bare' : y.ending = "" := by rw [← hy, ending_whole]
        have extended : other = name ++ x.ending := by
          rw [bare'] at rest
          exact String.toList_inj.mp (by simpa using rest.symm)
        right; right
        exact ⟨by rw [← hy, ← wholes], hx, extended⟩
      · -- both are helpers, and the last letter tells which
        have last := congrArg List.getLast? rest
        rw [List.getLast?_append_of_ne_nil _ (ending_ne_nil hx),
          List.getLast?_append_of_ne_nil _ (ending_ne_nil hy)] at last
        obtain rfl := eq_of_getLast?_ending hx hy last
        left
        exact ⟨rfl, String.toList_inj.mp (List.append_cancel_right rest)⟩
  · rintro (⟨rfl, rfl⟩ | ⟨rfl, _, rfl⟩ | ⟨rfl, _, rfl⟩)
    · rfl
    · simp only [entry, verb_whole, ending_whole, String.append_assoc, String.append_empty]
    · simp only [entry, verb_whole, ending_whole, String.append_assoc, String.append_empty]

theorem entry_not_mem_lifecycle (x : Accessor) (name : String) :
    x.entry name ∉ InterfaceDescriptor.lifecycle := by
  intro member
  simp only [InterfaceDescriptor.lifecycle, List.mem_cons, List.not_mem_nil, or_false] at member
  have first : (x.entry name).toList.head? = x.verb.toList.head? := by
    cases x <;> simp [entry, verb]
  rcases member with same | same | same
  all_goals
    rw [same] at first
    cases x <;> revert first <;> decide

end Accessor

theorem Property.accessors_nodup (p : Property) : p.accessors.Nodup := by
  unfold accessors
  cases p.ty <;> cases p.readOnly <;> simp

theorem Property.entries_nodup (p : Property) : p.entries.Nodup := by
  refine p.accessors_nodup.map fun x y same => ?_
  rcases Accessor.entry_eq_iff.mp same with ⟨same, _⟩ | ⟨_, helper, longer⟩ | ⟨_, helper, longer⟩
  · exact same
  · have nil := congrArg String.toList longer
    simp [Accessor.ending_ne_nil helper] at nil
  · have nil := congrArg String.toList longer
    simp [Accessor.ending_ne_nil helper] at nil

namespace InterfaceDescriptor

/-- No two members of an interface have the same entry. The rules for models keep the bare names of
members apart; this is what is left. -/
structure SpelledApart (d : InterfaceDescriptor) : Prop where
  lifecycle : ∀ m ∈ d.methods, m.name ∉ InterfaceDescriptor.lifecycle
  accessors : ∀ m ∈ d.methods, ∀ p ∈ d.properties, m.name ∉ p.entries
  /-- No property has the name of another one with the ending of one of its helpers. -/
  helpers : ∀ p ∈ d.properties, ∀ q ∈ d.properties, ∀ x ∈ q.accessors, x.whole ≠ x →
    x.whole ∈ p.accessors → p.name ≠ q.name ++ x.ending

theorem property_entries_nodup_iff {ps : List Property} (distinct : (ps.map (·.name)).Nodup) :
    (ps.flatMap (·.entries)).Nodup ↔
      ∀ p ∈ ps, ∀ q ∈ ps, ∀ x ∈ q.accessors, x.whole ≠ x → x.whole ∈ p.accessors →
        p.name ≠ q.name ++ x.ending := by
  have symmetric : Std.Symm (Function.onFun List.Disjoint fun p : Property => p.entries) :=
    ⟨fun _ _ => List.disjoint_symm⟩
  rw [List.nodup_flatMap, and_iff_right fun p _ => p.entries_nodup,
    ← distinct.of_map.pairwise_coe]
  constructor
  · intro disjoint p hp q hq x hx helper whole longer
    have apart : p ≠ q := by
      rintro rfl
      have nil := congrArg String.toList longer
      simp [Accessor.ending_ne_nil helper] at nil
    have same : x.whole.entry p.name = x.entry q.name :=
      Accessor.entry_eq_iff.mpr (.inr (.inl ⟨rfl, helper, longer⟩))
    exact disjoint hp hq apart (List.mem_map.mpr ⟨x.whole, whole, same⟩)
      (List.mem_map.mpr ⟨x, hx, rfl⟩)
  · intro helpers p hp q hq apart entry hentry hentry'
    obtain ⟨x, hx, rfl⟩ := List.mem_map.mp hentry
    obtain ⟨y, hy, same⟩ := List.mem_map.mp hentry'
    rcases Accessor.entry_eq_iff.mp same with ⟨_, names⟩ | ⟨rfl, helper, longer⟩ |
      ⟨rfl, helper, longer⟩
    · exact apart (List.inj_on_of_nodup_map distinct hp hq names.symm)
    · exact helpers q hq p hp x hx helper hy longer
    · exact helpers p hp q hq y hy helper hx longer

theorem entries_nodup_iff {d : InterfaceDescriptor} (allowed : d.Allowed) :
    d.exports.entries.Nodup ↔ d.SpelledApart := by
  obtain ⟨distinct, distinct', _⟩ := List.nodup_append.mp allowed.members_nodup
  have helpers_iff := property_entries_nodup_iff distinct
  have unlisted : ∀ entry ∈ lifecycle, ∀ other ∈ d.properties.flatMap (·.entries),
      entry ≠ other := by
    rintro _ listed _ member rfl
    obtain ⟨p, _, hentry⟩ := List.mem_flatMap.mp member
    obtain ⟨x, _, rfl⟩ := List.mem_map.mp hentry
    exact x.entry_not_mem_lifecycle p.name listed
  have basic : lifecycle.Nodup := by decide
  rw [exports, List.nodup_append, List.nodup_append, helpers_iff]
  constructor
  · rintro ⟨⟨_, helpers, _⟩, _, apart⟩
    refine ⟨fun m hm listed => ?_, fun m hm p hp listed => ?_, helpers⟩
    · exact apart _ (List.mem_append_left _ listed) _ (List.mem_map.mpr ⟨m, hm, rfl⟩) rfl
    · have member := List.mem_flatMap.mpr ⟨p, hp, listed⟩
      exact apart _ (List.mem_append_right _ member) _ (List.mem_map.mpr ⟨m, hm, rfl⟩) rfl
  · rintro ⟨unreserved, accessors, helpers⟩
    refine ⟨⟨basic, helpers, unlisted⟩, distinct', ?_⟩
    rintro entry member _ method rfl
    obtain ⟨m, hm, rfl⟩ := List.mem_map.mp method
    rcases List.mem_append.mp member with listed | member
    · exact unreserved m hm listed
    · obtain ⟨p, hp, listed⟩ := List.mem_flatMap.mp member
      exact accessors m hm p hp listed

end InterfaceDescriptor

/-! ### Namespaces -/

namespace Exports

def ofSpace (space : String) : List Exports :=
  [⟨space, ["GetLastError", "ClearError"]⟩,
    ⟨space ++ "Array", ["Count", "Item", "Release"]⟩,
    ⟨space ++ "Dict", ["Count", "Next", "Reset", "Release"]⟩,
    ⟨space ++ "Set", ["Count", "Next", "Reset", "Release"]⟩]

theorem names_ofSpace (space : String) :
    (Symbol.ofSpace space).map (·.name) = (ofSpace space).flatMap names := by
  simp [Symbol.ofSpace, ofSpace, names, String.append_assoc]

/-- The functions of a namespace have distinct names. -/
theorem ofSpace_names_nodup (space : String) : ((ofSpace space).flatMap names).Nodup := by
  have tails : (ofSpace space).flatMap names =
      ((ofSpace "").flatMap names).map fun tail => space ++ tail := by
    simp [ofSpace, names, String.append_assoc]
  rw [tails]
  refine List.Nodup.map (fun s t same => ?_) (by decide)
  simpa using same

theorem not_continues_self (a : Exports) : ¬ a.Continues a := by
  rintro ⟨w, longer, _⟩
  have lengths := congrArg (fun s => s.toList.length) longer
  simp only [String.toList_append, List.length_append] at lengths
  have : "_".toList.length = 1 := rfl
  omega

end Exports

/-! ### Models -/

namespace Loaded

/-- The interfaces that a load reports, as they are registered. -/
def descriptors (l : Loaded) (r : Registry) : List InterfaceDescriptor :=
  l.interfaces.filterMap fun p => r.interface? p.2

def symbols (l : Loaded) (r : Registry) : List Symbol :=
  Symbol.ofSpace l.space ++ (l.descriptors r).flatMap (Symbol.ofInterface r l.space)

theorem names_symbols (l : Loaded) (r : Registry) :
    (l.symbols r).map (·.name) =
      (Exports.ofSpace l.space ++ (l.descriptors r).map (·.exports)).flatMap Exports.names := by
  simp only [symbols, List.map_append, Exports.names_ofSpace, List.map_flatMap,
    Symbol.names_ofInterface, List.flatMap_append, List.flatMap_map]

end Loaded

namespace Registry

variable {r : Registry} {m : Model} {enums : List EnumDescriptor}
  {interfaces : List InterfaceDescriptor}

theorem Admits.descriptors (admits : r.Admits m enums interfaces) (indexed : r.Indexed) :
    (report m enums interfaces).descriptors (r.commit enums interfaces) = interfaces := by
  unfold Loaded.descriptors report
  rw [List.filterMap_map]
  refine (List.filterMap_congr fun d hd => ?_).trans List.filterMap_some
  exact admits.interface?_commit indexed hd

/-- Interfaces with distinct names clash only where one name continues another. -/
theorem interfaces_pairwise_iff {ds : List InterfaceDescriptor}
    (distinct : (ds.map (·.name)).Nodup) :
    (ds.map (·.exports)).Pairwise (fun a b => ¬ a.Clashes b) ↔
      ∀ d ∈ ds, ∀ e ∈ ds, ¬ d.exports.Continues e.exports := by
  have symmetric : Std.Symm fun d e : InterfaceDescriptor => ¬ d.exports.Clashes e.exports :=
    ⟨fun _ _ clear clash => clear clash.symm⟩
  rw [List.pairwise_map, ← distinct.of_map.pairwise_coe]
  constructor
  · intro clear d hd e he continues
    by_cases same : d = e
    · subst same
      exact Exports.not_continues_self _ continues
    · exact clear hd he same (.inr (.inl continues))
  · intro clear d hd e he apart clash
    rcases clash with ⟨owner, _⟩ | continues | continues
    · exact apart (List.inj_on_of_nodup_map distinct hd he owner)
    · exact clear d hd e he continues
    · exact clear e he d hd continues

/-- When the symbols of a model can be linked. The names of the symbols of a model that is loaded are
distinct exactly when no method is spelled like a function that every interface has or like an
accessor, no property like the helper of another one, no interface clashes with what the namespace
has once, and no name of an interface continues another one with an entry of it. -/
theorem symbol_names_nodup_iff (ms : List Model) {l : Loaded} {r' : Registry}
    (loaded : (loadAll {} ms).load m = .ok (l, r')) :
    ((l.symbols r').map (·.name)).Nodup ↔
      (∀ d ∈ l.descriptors r', d.SpelledApart) ∧
      (∀ a ∈ Exports.ofSpace l.space, ∀ d ∈ l.descriptors r', ¬ a.Clashes d.exports) ∧
      ∀ d ∈ l.descriptors r', ∀ e ∈ l.descriptors r', ¬ d.exports.Continues e.exports := by
  have indexed := (wellFormed_empty.loadAll ms).toIndexed
  obtain ⟨enums, interfaces, admits, rfl, rfl⟩ := load_eq_ok_iff.mp loaded
  have distinct : (interfaces.map (·.name)).Nodup := by
    rw [admits.interface_names]
    exact (List.nodup_append.mp admits.names_nodup).2.1
  have spelled : ∀ d ∈ interfaces, d.exports.entries.Nodup ↔ d.SpelledApart := by
    intro d hd
    obtain ⟨_, _, _, _, allowed⟩ := mem_right_of_forall₂ admits.interfaces_described hd
    exact d.entries_nodup_iff allowed
  obtain ⟨spaceEntries, spaceClear⟩ :=
    (Exports.flatMap_names_nodup_iff _).mp (Exports.ofSpace_names_nodup m.space)
  rw [Loaded.names_symbols, admits.descriptors indexed, Exports.flatMap_names_nodup_iff,
    List.pairwise_append, interfaces_pairwise_iff distinct]
  change _ ↔ _ ∧ (∀ a ∈ Exports.ofSpace m.space, _) ∧ _
  constructor
  · rintro ⟨entries, _, clear, apart⟩
    refine ⟨fun d hd => (spelled d hd).mp (entries _ ?_), fun a ha d hd => ?_, clear⟩
    · exact List.mem_append_right _ (List.mem_map.mpr ⟨d, hd, rfl⟩)
    · exact apart a ha _ (List.mem_map.mpr ⟨d, hd, rfl⟩)
  · rintro ⟨entries, apart, clear⟩
    refine ⟨fun a ha => ?_, spaceClear, clear, fun a ha b hb => ?_⟩
    · rcases List.mem_append.mp ha with inSpace | inModel
      · exact spaceEntries a inSpace
      · obtain ⟨d, hd, rfl⟩ := List.mem_map.mp inModel
        exact (spelled d hd).mpr (entries d hd)
    · obtain ⟨d, hd, rfl⟩ := List.mem_map.mp hb
      exact apart a ha d hd

/-- A method with the spelling of a getter is loaded, and its symbol has the name of the getter. -/
theorem getter_and_method_clash :
    ∃ l r', ({} : Registry).load
        { space := "Notes"
          interfaces := [{ name := "INote"
                           properties := [{ name := "text", type := "string_t" }]
                           methods := [{ name := "Gettext" }] }] } = .ok (l, r') ∧
      ¬ ((l.symbols r').map (·.name)).Nodup := by
  let notes : Model :=
    { space := "Notes"
      interfaces := [{ name := "INote"
                       properties := [{ name := "text", type := "string_t" }]
                       methods := [{ name := "Gettext" }] }] }
  let note : InterfaceDescriptor :=
    ⟨⟨0⟩, "INote", [⟨"text", .string, true⟩], [⟨"Gettext", [], .void⟩]⟩
  have outcome : (({} : Registry).load notes).toOption.map
      (fun found => found.1.descriptors found.2) = some [note] := by
    decide +kernel
  obtain ⟨⟨l, r'⟩, found, listed⟩ := Option.map_eq_some_iff.mp outcome
  have loaded : ({} : Registry).load notes = .ok (l, r') := by
    cases given : ({} : Registry).load notes <;> rw [given] at found <;> cases found
    rfl
  refine ⟨l, r', loaded, fun distinct => ?_⟩
  have member : note ∈ l.descriptors r' := by
    rw [listed]
    exact List.mem_singleton_self note
  have apart := ((symbol_names_nodup_iff [] loaded).mp distinct).1 note member
  exact apart.accessors _ (List.mem_singleton_self _) _ (List.mem_singleton_self _) (by decide)

end Registry

end ObjectBoundary
