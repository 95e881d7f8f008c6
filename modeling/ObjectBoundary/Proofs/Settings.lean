import ObjectBoundary.Proofs.Callable
import ObjectBoundary.Proofs.Cursors
import ObjectBoundary.Proofs.Dictionaries

/-!
# Settings and metadata

The settings of a manager and the metadata of a task are maps from texts to texts. Settings are
updated by whole dictionaries and metadata entry by entry. In either case the map is what is left of
all writes, in order; a call with something that is no text writes nothing; and the map is read as a
copy that lists it in the order of the bytes of its keys.
-/

namespace ObjectBoundary

open Op State

namespace Binding

def getSettings : Binding :=
  ⟨"ITaskManager_GetSettings", .manager, "GetSettings", .call [] (some .handle)⟩

def updateSettings : Binding :=
  ⟨"ITaskManager_UpdateSettings", .manager, "UpdateSettings", .call [.handle] none⟩

def getMetadata : Binding := ⟨"ITask_GetMetadata", .task, "GetMetadata", .call [] (some .handle)⟩

def setMetadata : Binding :=
  ⟨"ITask_SetMetadata", .task, "SetMetadata", .call [.handle, .handle] none⟩

end Binding

namespace Collection

/-- A sealed copy of a map from texts to texts. -/
def sealedTexts (entries : List (String × String)) : Collection :=
  { kind := .dict
    keyTy := some .string
    elemTy := some .string
    isSealed := true
    entries := entries.map Entry.ofTexts }

theorem snapshot_dictOf (map : TextMap) :
    snapshot (Task.dictOf map) (.dict .string .string) = .ok (sealedTexts map.entries) := by
  have keys := map.keys_nodup.map fun _ _ same => Value.str.inj same
  have apart : ((map.entries.map Value.textPair).map Prod.fst).Pairwise
      fun a b => a.same b = false := by
    rw [Value.pairwise_not_same_iff]
    rwa [List.map_map] at keys ⊢
  have entries : Collection.entriesOf? (Task.dictOf map) =
      some (.dict, map.entries.map Entry.ofTexts) := by
    have stored := copyPairs_nil apart
    rw [List.map_map] at stored
    exact congrArg (fun entries => some (CollectionKind.dict, entries)) stored
  simp only [snapshot, declared?, entries, if_true]
  rfl

end Collection

namespace Manager

theorem textEntries_texts (left : List (String × String)) :
    textEntries (.dict (left.map Value.textPair)) = .ok left := by
  refine mapM_eq_ok_iff.mpr ?_
  rw [List.forall₂_map_left_iff, List.forall₂_same]
  exact fun _ _ => rfl

theorem run_updateSettings (s : State) (self : Ref) (m : Manager Ref)
    (left : List (String × String)) :
    s.run (m.invoke self "UpdateSettings" [.dict (left.map Value.textPair)]) =
      (.ok .void, s.withPayload self (.manager { m with settings := m.settings.extend left })) := by
  have consents : s.run (consent (textEntries (.dict (left.map Value.textPair)))) =
      (.ok left, s) := by
    rw [textEntries_texts]
    rfl
  simp only [invoke, List.headD_cons, run_bind, run_get, consents, run_replace, run_pure]

end Manager

namespace Payload

variable {p : Payload} {map before : TextMap}

def texts? : Payload → Option TextMap
  | .task t => some t.metadata
  | .manager m => some m.settings
  | _ => none

def withTexts (map : TextMap) : Payload → Payload
  | .task t => .task { t with metadata := map }
  | .manager m => .manager { m with settings := map }
  | p => p

theorem texts?_withTexts (texts : p.texts? = some before) :
    (p.withTexts map).texts? = some map := by
  cases p <;> first | rfl | cases texts

@[simp] theorem refs_withTexts (map : TextMap) (p : Payload) : (p.withTexts map).refs = p.refs := by
  cases p <;> rfl

theorem Fits.withTexts {tag : Tag} (fits : p.Fits tag) (map : TextMap) :
    (p.withTexts map).Fits tag := by
  cases p <;> exact fits

end Payload

namespace State

variable {s t : State} {b : Binding} {h k : Handle} {ref r : Ref} {m : Method} {map : TextMap}

/-- A method that gives a map gives a sealed copy of it exactly when there is a handle for it. -/
theorem Callable.gives_map (callable : s.Callable b h ref m)
    (access : b.access = .call [] (some .handle)) (returns : m.returns = .dict .string .string)
    (parameterless : m.parameters = [])
    (called : s.run (callMethod ref b.member []) = (.ok (Task.dictOf map), s)) :
    HandsOut (Call.member b h []).body s (fun g => ⟨.handle g, []⟩)
      (.collection (.sealedTexts map.entries)) := by
  have carries : s.heap.Carries (Collection.sealedTexts map.entries).refs := by
    rw [Collection.refs_of_texts rfl]
    exact Heap.carries_nil _
  refine callable.gives access (by rw [parameterless]; rfl) ?_ called (by rw [returns]; rfl)
    (by rw [returns]; exact Collection.snapshot_dictOf map) carries
  rw [parameterless]
  rfl

/-! ### Writing texts -/

variable {call : Call} {pairs : List (String × String)} {p : Payload}

/-- A call that writes texts into the map of an object: those that a dictionary has been filled with
into the settings of a manager, or one into the metadata of a task. -/
inductive Writes (s : State) (ref : Ref) : Call → List (String × String) → Prop where
  | update {h d : Handle} {dict : Ref} {m : Manager Ref} {pairs : List (String × String)}
      (bound : s.handles.bound? h = some ref)
      (held : s.heap.payloadAt ref.number = some (.manager m))
      (given : s.handles.bound? d = some dict) (filled : Filled dict pairs s) :
      Writes s ref (.member .updateSettings h [.handle d]) pairs
  | set {h k v : Handle} {t : Task} {key value : String}
      (bound : s.handles.bound? h = some ref)
      (held : s.heap.payloadAt ref.number = some (.task t)) (key_eq : s.Spells k key)
      (value_eq : s.Spells v value) :
      Writes s ref (.member .setMetadata h [.handle k, .handle v]) [(key, value)]

/-- A call that would write something else: a dictionary with a key or a value that is no text, or
an object that is no string. -/
inductive Misfits (s : State) (ref : Ref) : Call → Prop where
  | update {h d : Handle} {dict : Ref} {m : Manager Ref} {c : Collection} {key value : Value}
      (bound : s.handles.bound? h = some ref)
      (held : s.heap.payloadAt ref.number = some (.manager m))
      (given : s.handles.bound? d = some dict)
      (content : s.heap.payloadAt dict.number = some (.collection c)) (isDict : c.kind = .dict)
      (member : ⟨some key, value⟩ ∈ c.entries)
      (other : ∀ pair, (key, value) ≠ Value.textPair pair) :
      Misfits s ref (.member .updateSettings h [.handle d])
  | set {h k v : Handle} {t : Task} {key value : Ref}
      (bound : s.handles.bound? h = some ref)
      (held : s.heap.payloadAt ref.number = some (.task t))
      (key_eq : s.handles.bound? k = some key) (value_eq : s.handles.bound? v = some value)
      (other : key.tag ≠ .string ∨ value.tag ≠ .string) :
      Misfits s ref (.member .setMetadata h [.handle k, .handle v])

/-- A call that reads the map of an object. -/
inductive Recalls (s : State) (ref : Ref) : Call → Prop where
  | settings {h : Handle} {m : Manager Ref} (bound : s.handles.bound? h = some ref)
      (held : s.heap.payloadAt ref.number = some (.manager m)) :
      Recalls s ref (.member .getSettings h [])
  | metadata {h : Handle} {t : Task} (bound : s.handles.bound? h = some ref)
      (held : s.heap.payloadAt ref.number = some (.task t)) :
      Recalls s ref (.member .getMetadata h [])

/-- A write goes through, and the map has then been extended by what is left of the texts. -/
theorem Writes.perform (writes : s.Writes ref call pairs) (sound : s.Sound)
    (held : s.heap.payloadAt ref.number = some p) (texts : p.texts? = some map) (thread : Nat) :
    ∃ left : List (String × String),
      (∀ key, left.reverse.lookup key = pairs.reverse.lookup key) ∧
      s.perform thread call =
        (⟨.bool true, []⟩, s.afterReplace thread ref (p.withTexts (map.extend left))) := by
  cases writes with
  | @update h d dict mgr pairs bound held' given filled =>
    cases held.symm.trans held'
    cases texts
    obtain ⟨c, left, content, kind_eq, entries_eq, same⟩ := filled.exists_texts given
    have callable := Callable.ofManager (b := .updateSettings) sound.countCall bound held rfl rfl
    have came : s.countCall.run (inbound (.handle d) (.dict .string .string)) =
        (.ok (.dict (left.map Value.textPair)), s.countCall) := by
      rw [run_inbound_collection sound.countCall given content (by rw [kind_eq]; rfl),
        Collection.toValue_of_texts kind_eq entries_eq, (Registry.hasType_texts left).conform_eq]
      rfl
    have read : s.countCall.run (inboundArguments [.handle d]
        [⟨"settings", .dict .string .string⟩]) =
          (.ok [.dict (left.map Value.textPair)], s.countCall) := by
      simp only [inboundArguments, run_bind, came, run_pure]
    refine ⟨left, same, perform_replaces rfl (callable.run_done rfl rfl rfl read ?_)⟩
    simp only [callMethod, run_bind, run_payload (s := s.countCall) held]
    exact Manager.run_updateSettings s.countCall ref mgr left
  | @set h k v task key value bound held' key_eq value_eq =>
    cases held.symm.trans held'
    cases texts
    have callable := Callable.ofTask (b := .setMetadata) sound.countCall bound held rfl rfl
    have first : s.countCall.Spells k key := key_eq
    have second : s.countCall.Spells v value := value_eq
    have read : s.countCall.run (inboundArguments [.handle k, .handle v]
        [⟨"key", .string⟩, ⟨"value", .string⟩]) = (.ok [.str key, .str value], s.countCall) := by
      simp only [inboundArguments, run_bind, first.run_inbound sound.countCall,
        second.run_inbound sound.countCall, run_pure]
    refine ⟨[(key, value)], fun _ => rfl,
      perform_replaces rfl (callable.run_done rfl rfl rfl read ?_)⟩
    simp only [callMethod, run_bind, run_payload (s := s.countCall) held]
    rfl

/-- An object that is no string does not come in as a text. -/
theorem run_inbound_other {r : Ref} (bound : s.handles.bound? k = some r)
    (other : r.tag ≠ .string) :
    ∃ wanted found, s.run (inbound (.handle k) .string) =
      (.error (.fault (.typeMismatch wanted found)), s) := by
  have mismatch : s.handles.resolve k (some .string) = .error (.mismatch .string r.tag) :=
    HandleTable.resolve_eq_mismatch bound other
  refine ⟨s.registry.tagName .string, s.registry.tagName r.tag, ?_⟩
  rw [run_inbound_handle rfl, run_bind, run_resolve, mismatch]
  rfl

/-- A call that would write something else changes nothing but the records of calls. -/
theorem Misfits.perform (misfits : s.Misfits ref call) (sound : s.Sound) (thread : Nat) :
    ∃ wanted found, s.perform thread call = (⟨.bool false, []⟩,
      s.countCall.recordFailure thread (.fault (.typeMismatch wanted found))) := by
  cases misfits with
  | @update h d dict mgr c key value bound held given content isDict member other =>
    have callable := Callable.ofManager (b := .updateSettings) sound.countCall bound held rfl rfl
    obtain ⟨wanted, found, failed⟩ : ∃ wanted found,
        s.registry.conform (.dict .string .string) c.toValue =
          .error (.typeMismatch wanted found) := by
      rw [Collection.toValue, isDict]
      exact Registry.conform_texts_of_other (List.mem_filterMap.mpr ⟨_, member, rfl⟩) other
    have came : s.countCall.run (inbound (.handle d) (.dict .string .string)) =
        (.error (.fault (.typeMismatch wanted found)), s.countCall) := by
      rw [run_inbound_collection sound.countCall given content (by rw [isDict]; rfl)]
      exact congrArg (fun made => (made.mapError Failure.fault, s.countCall)) failed
    have refused : s.countCall.run (inboundArguments [.handle d]
        [⟨"settings", .dict .string .string⟩]) =
          (.error (.fault (.typeMismatch wanted found)), s.countCall) := by
      simp only [inboundArguments, run_bind, came]
    exact ⟨wanted, found, perform_refuses rfl (callable.run_refused rfl rfl refused)⟩
  | @set h k v task key value bound held key_eq value_eq other =>
    have callable := Callable.ofTask (b := .setMetadata) sound.countCall bound held rfl rfl
    obtain ⟨wanted, found, refused⟩ : ∃ wanted found,
        s.countCall.run (inboundArguments [.handle k, .handle v]
          [⟨"key", .string⟩, ⟨"value", .string⟩]) =
            (.error (.fault (.typeMismatch wanted found)), s.countCall) := by
      by_cases isString : key.tag = .string
      · obtain ⟨text, spells⟩ := sound.countCall.exists_spells key_eq isString
        obtain ⟨wanted, found, came⟩ := run_inbound_other (s := s.countCall) value_eq
          (other.resolve_left (not_not_intro isString))
        refine ⟨wanted, found, ?_⟩
        simp only [inboundArguments, run_bind, spells.run_inbound sound.countCall, came]
      · obtain ⟨wanted, found, came⟩ := run_inbound_other (s := s.countCall) key_eq isString
        refine ⟨wanted, found, ?_⟩
        simp only [inboundArguments, run_bind, came]
    exact ⟨wanted, found, perform_refuses rfl (callable.run_refused rfl rfl refused)⟩

/-- A call that reads the map gives a sealed copy of it exactly when there is a handle for it. -/
theorem Recalls.handsOut (recalls : s.Recalls ref call) (sound : s.Sound)
    (held : s.heap.payloadAt ref.number = some p) (texts : p.texts? = some map) :
    HandsOut call.body s (fun g => ⟨.handle g, []⟩) (.collection (.sealedTexts map.entries)) := by
  cases recalls with
  | @settings h mgr bound held' =>
    cases held.symm.trans held'
    cases texts
    have callable := Callable.ofManager (b := .getSettings) sound bound held rfl rfl
    refine callable.gives_map rfl rfl rfl ?_
    simp only [callMethod, run_bind, run_payload held]
    rfl
  | @metadata h task bound held' =>
    cases held.symm.trans held'
    cases texts
    have callable := Callable.ofTask (b := .getMetadata) sound bound held rfl rfl
    refine callable.gives_map rfl rfl rfl ?_
    have invoked : s.run (consent (task.invoke (Timestamp.date s.now) "GetMetadata" [])) =
        (.ok (Task.dictOf task.metadata, task), s) := rfl
    have today : s.run today = (.ok (Timestamp.date s.now), s) := rfl
    simp only [callMethod, run_bind, run_payload held, Binding.getMetadata, today, invoked,
      run_replace, withPayload_self held rfl, run_pure]

theorem Recalls.perform (recalls : s.Recalls ref call) (sound : s.Sound)
    (held : s.heap.payloadAt ref.number = some p) (texts : p.texts? = some map) (thread : Nat) :
    let done := s.perform thread call
    s.heap.Kept done.2.heap ∧
      ((s.Grants 1 ∧ ∃ g t, done = (⟨.handle g, []⟩, t.setLastError thread {}) ∧
          s.countCall.Placed g (.collection (.sealedTexts map.entries)) t) ∨
        ¬ s.Grants 1 ∧ (done.2.lastErrors thread).code ≠ .none) := by
  cases recalls with
  | settings bound held' =>
    exact perform_handsOut rfl (Recalls.handsOut (.settings bound held') sound.countCall held texts)
  | metadata bound held' =>
    exact perform_handsOut rfl (Recalls.handsOut (.metadata bound held') sound.countCall held texts)

/-! ### What is left of all writes -/

/-- Calls that write texts into the map of an object, in any order with such that would write
something else or read the map, and with calls about other objects. -/
inductive Writing (ref : Ref) (s : State) : List (String × String) → State → Prop where
  | refl : Writing ref s [] s
  | write {writes pairs : List (String × String)} {t : State} {call : Call}
      (writing : Writing ref s writes t) (thread : Nat) (more : t.Writes ref call pairs) :
      Writing ref s (writes ++ pairs) (t.perform thread call).2
  | refused {writes : List (String × String)} {t : State} {call : Call}
      (writing : Writing ref s writes t) (thread : Nat) (misfits : t.Misfits ref call) :
      Writing ref s writes (t.perform thread call).2
  | read {writes : List (String × String)} {t : State} {call : Call}
      (writing : Writing ref s writes t) (thread : Nat) (recalls : t.Recalls ref call) :
      Writing ref s writes (t.perform thread call).2
  | beside {writes : List (String × String)} {t u : State} (writing : Writing ref s writes t)
      (beside : t.LeadsBeside ref.number u) : Writing ref s writes u

theorem Writes.exists_bound (writes : s.Writes ref call pairs) :
    ∃ h, s.handles.bound? h = some ref := by
  cases writes <;> exact ⟨_, ‹s.handles.bound? _ = some ref›⟩

theorem Recalls.exists_bound (recalls : s.Recalls ref call) :
    ∃ h, s.handles.bound? h = some ref := by
  cases recalls <;> exact ⟨_, ‹s.handles.bound? _ = some ref›⟩

theorem Writes.exported (writes : s.Writes ref call pairs) : call.Exported := by
  cases writes <;> exact Call.exported_member (by decide) _ _

theorem Misfits.exported (misfits : s.Misfits ref call) : call.Exported := by
  cases misfits <;> exact Call.exported_member (by decide) _ _

theorem Recalls.exported (recalls : s.Recalls ref call) : call.Exported := by
  cases recalls <;> exact Call.exported_member (by decide) _ _

variable {writes : List (String × String)} {before : TextMap}

namespace Writing

theorem reachable (writing : s.Writing ref writes t) (reachable : s.Reachable) : t.Reachable := by
  induction writing with
  | refl => exact reachable
  | write _ thread more ih => exact ih.step (.call thread more.exported)
  | refused _ thread misfits ih => exact ih.step (.call thread misfits.exported)
  | read _ thread recalls ih => exact ih.step (.call thread recalls.exported)
  | beside _ beside ih => exact Leads.trans ih beside.leads

/-- As long as the object is there, its map holds what it held and all that has been written since.
-/
theorem holds (writing : s.Writing ref writes t) (reachable : s.Reachable)
    (held : s.heap.payloadAt ref.number = some p) (texts : p.texts? = some before) :
    ref.number < t.heap.objects.length ∧ ∀ q, t.heap.payloadAt ref.number = some q →
      ∃ map, q.texts? = some map ∧ map.Holds (before.entries ++ writes) := by
  induction writing with
  | refl =>
    refine ⟨Heap.lt_length_of_payloadAt held, fun q same => ?_⟩
    cases held.symm.trans same
    rw [List.append_nil]
    exact ⟨before, texts, .refl before⟩
  | @write writes pairs t call writing thread more ih =>
    have sound := (writing.reachable reachable).sound
    obtain ⟨h, bound⟩ := more.exists_bound
    obtain ⟨q, held⟩ := (sound.holds_bound bound).payload
    obtain ⟨map, texts, holds⟩ := ih.2 q held
    obtain ⟨left, same, done⟩ := more.perform sound held texts thread
    have fits := (sound.heap.fits_of_holds (sound.has bound) held).withTexts (map.extend left)
    obtain ⟨_, held'⟩ := sound.afterReplace bound fits
      (fun r member => sound.heap.holds_owned held (q.refs_withTexts _ ▸ member)) thread
    rw [done]
    refine ⟨Heap.lt_length_of_payloadAt held', fun q' same' => ?_⟩
    cases held'.symm.trans same'
    refine ⟨_, Payload.texts?_withTexts texts, ?_⟩
    rw [← List.append_assoc]
    exact holds.extend same
  | @refused writes t call writing thread misfits ih =>
    obtain ⟨_, _, done⟩ := misfits.perform (writing.reachable reachable).sound thread
    rw [done]
    exact ih
  | @read writes t call writing thread recalls ih =>
    have sound := (writing.reachable reachable).sound
    obtain ⟨h, bound⟩ := recalls.exists_bound
    obtain ⟨q, held⟩ := (sound.holds_bound bound).payload
    obtain ⟨map, texts, _⟩ := ih.2 q held
    have kept := (recalls.perform sound held texts thread).1
    refine ⟨Nat.lt_of_lt_of_le ih.1 kept.length_le, fun q' held' => ih.2 q' ?_⟩
    rcases kept.payload ref.number ih.1 with same | gone
    · exact same.symm.trans held'
    · cases gone.symm.trans held'
  | @beside writes t u writing beside ih =>
    have reached := writing.reachable reachable
    have later := (beside.leads.advanced reached.sound).later
    exact ⟨Nat.lt_of_lt_of_le ih.1 later.length_le, fun q held =>
      ih.2 q (beside.payloadAt_of_lt reached ih.1 held)⟩

end Writing

/-- A call has given a copy of what is left of the writes, if there was a handle for it: a sealed
dictionary that lists it in order. -/
structure Recounts (s : State) (thread : Nat) (done : Answer × State)
    (writes : List (String × String)) : Prop where
  granted_iff : (done.2.lastErrors thread).code = .none ↔ s.Grants 1
  content : (done.2.lastErrors thread).code = .none → ∃ g r entries,
    done.1 = ⟨.handle g, []⟩ ∧ done.2.handles.bound? g = some r ∧
    done.2.heap.payloadAt r.number = some (.collection (.sealedTexts entries)) ∧
    Remains writes entries ∧
    ∀ turns : List Turn, (∀ turn ∈ turns, turn.isReset = false) →
      done.2.Lists g (.sealedTexts entries) turns

theorem Recalls.recounts (recalls : s.Recalls ref call) (reachable : s.Reachable)
    (held : s.heap.payloadAt ref.number = some p) (texts : p.texts? = some map)
    (holds : map.Holds writes) (thread : Nat) :
    s.Recounts thread (s.perform thread call) writes := by
  have reached : (s.perform thread call).2.Reachable :=
    reachable.step (.call thread recalls.exported)
  obtain ⟨_, ⟨granted, g, t, done, lent, r, bound, _, content⟩ | ⟨denied, failed⟩⟩ :=
    recalls.perform reachable.sound held texts thread
  case inr => exact ⟨iff_of_false failed denied, fun cleared => absurd cleared failed⟩
  have cleared : ((s.perform thread call).2.lastErrors thread).code = .none := by
    rw [done, code_setLastError_clear]
  refine ⟨iff_of_true cleared granted, fun _ => ⟨g, r, map.entries, ?_⟩⟩
  have behind : (s.perform thread call).2.Behind g r (.sealedTexts map.entries) := by
    refine ⟨reached.sound, reached.wellTyped, ?_, ?_⟩
    all_goals rw [done]
    · exact bound
    · exact content
  exact ⟨congrArg Prod.fst done, behind.bound, behind.payload, holds.remains,
    fun turns onward => behind.lists nofun rfl onward⟩

/-- After any calls that write texts into the settings of a manager or the metadata of a task, these
hold what is left of all writes, the last one under each key, in the order of the bytes of the keys.
Every such call succeeds; one that would write anything else fails as a mismatch of types and
changes no object; and reading gives a copy that lists what is left, if there is a handle for it. -/
theorem texts_merge (reachable : s.Reachable) (held : s.heap.payloadAt ref.number = some p)
    (texts : p.texts? = some before) (writing : s.Writing ref writes t) (thread : Nat)
    (call : Call) :
    let done := t.perform thread call
    (∀ pairs, t.Writes ref call pairs →
      done.1 = ⟨.bool true, []⟩ ∧ (done.2.lastErrors thread).code = .none) ∧
    (t.Misfits ref call →
      done.1 = ⟨.bool false, []⟩ ∧ (done.2.lastErrors thread).code = .typeMismatch ∧
        done.2.heap = t.heap) ∧
    (t.Recalls ref call → t.Recounts thread done (before.entries ++ writes)) := by
  intro done
  have reached := writing.reachable reachable
  have sound := reached.sound
  obtain ⟨_, holds⟩ := writing.holds reachable held texts
  refine ⟨fun pairs more => ?_, fun misfits => ?_, fun recalls => ?_⟩
  · obtain ⟨h, bound⟩ := more.exists_bound
    obtain ⟨q, held⟩ := (sound.holds_bound bound).payload
    obtain ⟨map, texts, _⟩ := holds q held
    obtain ⟨left, _, performed⟩ := more.perform sound held texts thread
    have done_eq : done = _ := performed
    rw [done_eq]
    exact ⟨rfl, code_setLastError_clear _ thread⟩
  · obtain ⟨wanted, found, performed⟩ := misfits.perform sound thread
    have done_eq : done = _ := performed
    rw [done_eq]
    exact ⟨rfl, congrArg LastError.code (lastErrors_setLastError_self _ thread _), rfl⟩
  · obtain ⟨h, bound⟩ := recalls.exists_bound
    obtain ⟨q, held⟩ := (sound.holds_bound bound).payload
    obtain ⟨map, texts, holds⟩ := holds q held
    exact recalls.recounts reached held texts holds thread

/-- A dictionary in which a text was stored twice under one key is taken over with the last one, and
the settings are listed in the order of their keys. -/
theorem repeated_setting_merged :
    let manager : Handle := ⟨0x100000001⟩
    let a : Handle := ⟨0x100000002⟩
    let b : Handle := ⟨0x100000003⟩
    let dict : Handle := ⟨0x100000004⟩
    let s := performAll {} [(0, .createAs .manager), (0, .createText (.text "a")),
      (0, .createText (.text "b"))]
    let made := s.perform 0 (.newCollection .dict)
    let first := made.2.perform 0 (.insertEntry dict (.handle b) (.handle a))
    let second := first.2.perform 0 (.insertEntry dict (.handle a) (.handle b))
    let third := second.2.perform 0 (.insertEntry dict (.handle b) (.handle b))
    let updated := third.2.perform 1 (.member .updateSettings manager [.handle dict])
    let got := updated.2.perform 2 (.member .getSettings manager [])
    updated.1 = ⟨.bool true, []⟩ ∧ got.1 = ⟨.handle ⟨0x100000005⟩, []⟩ ∧
      Remains [("b", "a"), ("a", "b"), ("b", "b")] [("a", "b"), ("b", "b")] ∧
      got.2.Lists ⟨0x100000005⟩ (.sealedTexts [("a", "b"), ("b", "b")])
        [.next 3, .limit 0, .next 3] := by
  dsimp only
  -- The states are named by equations: what is decided of them is then evaluated only once.
  generalize built : performAll _ _ = s
  generalize opened : s.perform 0 _ = made
  generalize firstStored : made.2.perform 0 _ = first
  generalize secondStored : first.2.perform 0 _ = second
  generalize thirdStored : second.2.perform 0 _ = third
  generalize taken : third.2.perform 1 _ = updated
  generalize recalled : updated.2.perform 2 _ = got
  have reachable : s.Reachable := by
    rw [← built]
    refine Leads.refl.performAll fun call hcall => ?_
    simp only [List.mem_cons, List.not_mem_nil, or_false] at hcall
    rcases hcall with rfl | rfl | rfl
    · exact .of_symbol "ITaskManager_Create" [] rfl
    · exact .of_symbol "idlbridge_string_create" [.text _] rfl
    · exact .of_symbol "idlbridge_string_create" [.text _] rfl
  have facts : ((made.2.lastErrors 0).code = .none ∧ made.1.reply = .handle ⟨0x100000004⟩ ∧
      ∀ t ∈ [made.2, first.2, second.2, third.2],
        t.handles.bound? ⟨0x100000004⟩ = some ⟨3, .dict⟩ ∧
        (t.handles.bound? ⟨0x100000002⟩).bind t.text? = some "a" ∧
        (t.handles.bound? ⟨0x100000003⟩).bind t.text? = some "b") ∧
      (third.2.heap.manager? ⟨0, .interface TaskModel.ids.manager⟩ = some {} ∧
        third.2.handles.bound? ⟨0x100000001⟩ = some ⟨0, .interface TaskModel.ids.manager⟩) ∧
      (updated.2.handles.bound? ⟨0x100000001⟩ = some ⟨0, .interface TaskModel.ids.manager⟩ ∧
        (updated.2.heap.manager? ⟨0, .interface TaskModel.ids.manager⟩).isSome = true) ∧
      got.1 = ⟨.handle ⟨0x100000005⟩, []⟩ ∧ (got.2.lastErrors 2).code = .none ∧
      got.2.handles.bound? ⟨0x100000005⟩ = some ⟨4, .dict⟩ ∧
      (got.2.collection? ⟨4, .dict⟩).map (·.toValue.same
        (.dict [(.str "a", .str "b"), (.str "b", .str "b")])) = some true := by
    subst built opened firstStored secondStored thirdStored taken recalled
    decide +kernel
  obtain ⟨⟨cleared, answered, stored⟩, ⟨empty, managed⟩, ⟨managed', there⟩, got_eq, done, copy,
    whole⟩ := facts
  simp only [List.forall_mem_cons, ← spells_iff] at stored
  obtain ⟨⟨bound₀, a₀, b₀⟩, ⟨bound₁, a₁, b₁⟩, ⟨bound₂, a₂, b₂⟩, ⟨bound₃, -, -⟩, -⟩ := stored
  have filled : Filled ⟨3, .dict⟩ [("b", "a"), ("a", "b"), ("b", "b")] third.2 := by
    subst opened firstStored secondStored thirdStored
    have begun := Filled.make reachable 0 cleared answered bound₀
    exact ((begun.store 0 bound₀ b₀ a₀).store 0 bound₁ a₁ b₁).store 0 bound₂ b₂ b₂
  have held := Heap.manager?_eq_some_iff.mp empty
  have update := Writes.update managed held bound₃ filled
  obtain ⟨m, held'⟩ := Option.isSome_iff_exists.mp there
  have recalls := Recalls.settings managed' (Heap.manager?_eq_some_iff.mp held')
  have accepted := ((texts_merge filled.reachable held rfl .refl 1 _).1 _ update).1
  have writing := Writing.refl.write 1 update
  rw [taken] at accepted writing
  have recounts := (texts_merge filled.reachable held rfl writing 2 _).2.2 recalls
  rw [recalled] at recounts
  obtain ⟨g, r, entries, got_eq', bound, content, remains, lists⟩ := recounts.content done
  cases got_eq.symm.trans got_eq'
  cases copy.symm.trans bound
  obtain ⟨c, found, same⟩ := Option.map_eq_some_iff.mp whole
  cases (collection?_eq_some_iff.mp found).symm.trans content
  have listed : entries.map Value.textPair = [("a", "b"), ("b", "b")].map Value.textPair := by
    rw [Collection.toValue_of_texts rfl rfl, Value.same_iff_eq] at same
    exact Value.dict.inj same
  obtain rfl : entries = [("a", "b"), ("b", "b")] :=
    List.map_injective_iff.mpr Value.textPair_injective listed
  exact ⟨accepted, got_eq, remains, lists _ (by decide)⟩

end State

end ObjectBoundary
