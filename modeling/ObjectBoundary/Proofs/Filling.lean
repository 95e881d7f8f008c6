import ObjectBoundary.Proofs.Collections
import ObjectBoundary.Proofs.Frame
import ObjectBoundary.Proofs.Readable

/-!
# Filling collections with texts

A new collection is empty. Texts are copied into it from the strings behind live handles, one call
after another, and nothing else changes.
-/

namespace ObjectBoundary

open Op State

namespace Collection

/-- An array to which texts have been pushed. -/
def ofTexts (texts : List String) : Collection :=
  { kind := .array, entries := texts.map fun text => .item (.str text) }

theorem ofTexts_concat (texts : List String) (text : String) :
    { ofTexts texts with entries := (ofTexts texts).entries ++ [.item (.str text)] } =
      ofTexts (texts ++ [text]) := by
  simp [ofTexts]

theorem refs_ofTexts (texts : List String) : (ofTexts texts).refs = [] := by
  simp [refs, ofTexts, Entry.refs, Entry.item, Value.refs]

theorem toValue_ofTexts (texts : List String) :
    (ofTexts texts).toValue = .array (texts.map .str) := by
  simp [toValue, ofTexts, Entry.item, Function.comp_def]

end Collection

namespace State

variable {s t : State} {h k : Handle} {ref : Ref} {p q : Payload} {text : String} {c : Collection}

/-! ### Strings behind handles -/

theorem Spells.payloadAt (spells : s.Spells k text) :
    ∃ r, s.handles.bound? k = some r ∧ s.heap.payloadAt r.number = some (.text text) := by
  obtain ⟨r, bound, held⟩ := spells
  exact ⟨r, bound, Heap.payload?_eq_payloadAt s.heap r ▸ held⟩

theorem spells_of_payloadAt {r : Ref} (bound : s.handles.bound? k = some r)
    (held : s.heap.payloadAt r.number = some (.text text)) : s.Spells k text :=
  ⟨r, bound, by rw [Heap.payload?_eq_payloadAt, held]⟩

theorem spells_iff : s.Spells k text ↔ (s.handles.bound? k).bind s.text? = some text := by
  rw [Option.bind_eq_some_iff]
  simp only [Spells, text?_eq_some_iff]

/-- A live handle of the tag of strings is that of a text. -/
theorem Sound.exists_spells (sound : s.Sound) {r : Ref} (bound : s.handles.bound? k = some r)
    (tag_eq : r.tag = .string) : ∃ text, s.Spells k text := by
  obtain ⟨p, held⟩ := (sound.holds_bound bound).payload
  have fits := sound.heap.fits_of_holds (sound.has bound) held
  rw [tag_eq] at fits
  obtain ⟨content, rfl⟩ := fits.exists_text
  exact ⟨content, spells_of_payloadAt bound held⟩

theorem Spells.run_readText (spells : s.Spells k text) (sound : s.Sound) :
    s.run (readText k) = (.ok text, s) := by
  obtain ⟨r, bound, held⟩ := spells.payloadAt
  have tag_eq : r.tag = .string := sound.heap.fits_of_holds (sound.has bound) held
  have resolved : s.handles.resolve k (some .string) = .ok r :=
    HandleTable.resolve_eq_ok_iff.mpr ⟨bound, fun tag same => by cases same; exact tag_eq⟩
  simp only [readText, textOf, run_bind, run_resolve, resolved, run_payload held, run_pure]

theorem Spells.run_inboundUntyped (spells : s.Spells k text) (sound : s.Sound) :
    s.run (inboundUntyped (.handle k)) = (.ok (.str text), s) := by
  obtain ⟨r, bound, held⟩ := spells.payloadAt
  have tag_eq : r.tag = .string := sound.heap.fits_of_holds (sound.has bound) held
  have resolved : s.handles.resolve k none = .ok r :=
    HandleTable.resolve_eq_ok_iff.mpr ⟨bound, fun tag same => by cases same⟩
  simp only [inboundUntyped, Op.kindOf, Wire.kind?_handle, run_bind, run_pure,
    Wire.handleBits_handle, run_resolve, resolved, contentOf, tag_eq, textOf, run_payload held]

theorem Spells.run_inboundKey (spells : s.Spells k text) (sound : s.Sound) :
    s.run (inboundKey (.handle k)) = (.ok (.str text), s) := by
  simp only [inboundKey, run_bind, spells.run_inboundUntyped sound, run_pure]

theorem Spells.lent {w : Wire} (spells : s.Spells k text) (lent : s.Lent w t) :
    t.Spells k text := by
  obtain ⟨r, bound, held⟩ := spells.payloadAt
  exact spells_of_payloadAt (lent.bound_of bound) (lent.grown.payloadAt_eq held)

/-! ### Additions -/

def afterReplace (s : State) (thread : Nat) (ref : Ref) (p : Payload) : State :=
  (s.countCall.withPayload ref p).setLastError thread {}

/-- A call whose request does nothing but give an object a new payload. -/
theorem perform_replaces {thread : Nat} {call : Call}
    (passes : s.perform thread call = s.guarded thread ⟨call.sentinel, []⟩ call.body)
    (run : s.countCall.run call.body = (.ok ⟨.bool true, []⟩, s.countCall.withPayload ref p)) :
    s.perform thread call = (⟨.bool true, []⟩, s.afterReplace thread ref p) := by
  rw [passes, guarded, run]
  rfl

/-- A call whose request is refused with nothing changed. -/
theorem perform_refuses {thread : Nat} {call : Call} {e : Failure}
    (passes : s.perform thread call = s.guarded thread ⟨call.sentinel, []⟩ call.body)
    (run : s.countCall.run call.body = (.error e, s.countCall)) :
    s.perform thread call = (⟨call.sentinel, []⟩, s.countCall.recordFailure thread e) := by
  rw [passes, guarded, run]

theorem Sound.afterReplace (sound : s.Sound) (bound : s.handles.bound? h = some ref)
    (fits : p.Fits ref.tag) (refs : ∀ r ∈ p.refs, s.heap.Holds r) (thread : Nat) :
    (s.afterReplace thread ref p).Sound ∧
      (s.afterReplace thread ref p).heap.payloadAt ref.number = some p := by
  have sound' := sound.withPayload (sound.holds_bound bound) fits refs
  exact ⟨sound'.of_eq rfl rfl rfl rfl rfl, sound.payloadAt_withPayload bound fits refs⟩

/-- What is behind another live handle stays. -/
theorem payloadAt_afterReplace {g : Handle} {r : Ref} {thread : Nat}
    (sound : (s.afterReplace thread ref q).Sound) (held : s.heap.payloadAt ref.number = some p)
    (bound : s.handles.bound? g = some r) (other : s.heap.payloadAt r.number ≠ some p) :
    (s.afterReplace thread ref q).heap.payloadAt r.number = s.heap.payloadAt r.number := by
  have apart : ref.number ≠ r.number := fun same => other (same ▸ held)
  have placed := Heap.payloadAt_replace_of_alive (p := q) (Heap.lt_length_of_payloadAt held)
    (sound.holds_bound (h := g) bound).alive
  rwa [if_neg apart] at placed

/-- A text stays when another object gets a new payload. -/
theorem Spells.afterReplace {thread : Nat} (spells : s.Spells k text)
    (sound : (s.afterReplace thread ref q).Sound) (held : s.heap.payloadAt ref.number = some p)
    (wordless : ∀ text, p ≠ .text text) : (s.afterReplace thread ref q).Spells k text := by
  obtain ⟨r, bound, content⟩ := spells.payloadAt
  refine spells_of_payloadAt bound ((payloadAt_afterReplace sound held bound ?_).trans content)
  rw [content]
  exact fun same => wordless text (Option.some.inj same).symm

/-- An array to which a text is pushed. -/
theorem perform_push (sound : s.Sound) (bound : s.handles.bound? h = some ref)
    (held : s.heap.payloadAt ref.number = some (.collection c)) (kind_eq : c.kind = .array)
    (unsealed : c.isSealed = false) (spells : s.Spells k text) (thread : Nat) :
    s.perform thread (.push h (.handle k)) = (⟨.bool true, []⟩, s.afterReplace thread ref
      (.collection { c with entries := c.entries ++ [.item (.str text)] })) := by
  refine perform_replaces rfl ?_
  have behind := run_collection (s := s.countCall) sound.countCall bound held kind_eq
  have content : s.countCall.Spells k text := spells
  simp only [Call.body, Call.ofDone, pushItem, run_bind, behind,
    content.run_inboundUntyped sound.countCall, Collection.push, Collection.checkWritable,
    kind_eq, ne_eq, not_true, if_false, unsealed, Bool.false_eq_true, run_check]
  rfl

/-- A dictionary in which a text is stored under a text. -/
theorem perform_insertEntry {key : Handle} {keyText : String} (sound : s.Sound)
    (bound : s.handles.bound? h = some ref)
    (held : s.heap.payloadAt ref.number = some (.collection c)) (kind_eq : c.kind = .dict)
    (unsealed : c.isSealed = false) (spellsKey : s.Spells key keyText) (spells : s.Spells k text)
    (thread : Nat) :
    s.perform thread (.insertEntry h (.handle key) (.handle k)) = (⟨.bool true, []⟩,
      s.afterReplace thread ref
        (.collection { c with entries := putEntry (.str keyText) (.str text) c.entries })) := by
  refine perform_replaces rfl ?_
  have behind := run_collection (s := s.countCall) sound.countCall bound held kind_eq
  have keyContent : s.countCall.Spells key keyText := spellsKey
  have content : s.countCall.Spells k text := spells
  simp only [Call.body, Call.ofDone, Op.insertEntry, run_bind, behind,
    keyContent.run_inboundKey sound.countCall, content.run_inboundUntyped sound.countCall,
    Collection.insertEntry, Collection.checkWritable, kind_eq, ne_eq, not_true, if_false, unsealed,
    Bool.false_eq_true, run_check]
  rfl

/-- The handle of a new object with this payload has been given out. -/
def Placed (s : State) (h : Handle) (p : Payload) (t : State) : Prop :=
  s.Lent (.handle h) t ∧ ∃ ref, t.handles.bound? h = some ref ∧
    s.heap.objects.length ≤ ref.number ∧ t.heap.payloadAt ref.number = some p

/-- A request gives the handle of a new object with this payload exactly when there is one. -/
def HandsOut {α : Type} (op : Op α) (s : State) (answer : Handle → α) (p : Payload) : Prop :=
  op.Meets s (fun a t => s.Grants 1 ∧ ∃ h, a = answer h ∧ s.Placed h p t)
    fun e t => ¬ s.Grants 1 ∧ s.Refused e t

theorem HandsOut.bind {α β : Type} {op : Op α} {answer : Handle → α} {next : α → Op β}
    {answer' : Handle → β} (given : HandsOut op s answer p)
    (ends : ∀ h, next (answer h) = pure (answer' h)) : HandsOut (op >>= next) s answer' p := by
  refine Meets.bind given ?_
  rintro a t ⟨granted, h, rfl, placed⟩
  rw [ends h]
  exact meets_pure ⟨granted, h, rfl, placed⟩

/-- A collection is placed exactly when there is a handle for it. -/
theorem issueCollection_handsOut (sound : s.Sound) (carries : s.heap.Carries c.refs) :
    HandsOut (issueCollection c) s id (.collection c) := by
  have placed := issueNew_places sound.table c.kind.tag (.collection c)
  refine ((issueCollection_meets sound carries).and placed).imp ?_ ?_
  · rintro h t ⟨lent, granted, _, found⟩
    exact ⟨granted, h, rfl, lent, found⟩
  · rintro e t ⟨refused, denied, _⟩
    exact ⟨denied, refused⟩

/-- A call that gives a collection gives it exactly when there is a handle for it, and changes
nothing that was there. -/
theorem perform_handsOut {thread : Nat} {call : Call}
    (passes : s.perform thread call = s.guarded thread ⟨call.sentinel, []⟩ call.body)
    (given : HandsOut call.body s.countCall (fun h => ⟨.handle h, []⟩) (.collection c)) :
    let done := s.perform thread call
    s.heap.Kept done.2.heap ∧
      ((s.Grants 1 ∧ ∃ h t, done = (⟨.handle h, []⟩, t.setLastError thread {}) ∧
          s.countCall.Placed h (.collection c) t) ∨
        ¬ s.Grants 1 ∧ (done.2.lastErrors thread).code ≠ .none) := by
  intro done
  rcases guarded_cases s thread ⟨call.sentinel, []⟩ call.body with ⟨a, t, hr, hg⟩ | ⟨e, t, hr, hg⟩
  · obtain ⟨granted, h, rfl, placed⟩ := Meets.ok_of_run given hr
    have done_eq : done = _ := passes.trans hg
    rw [done_eq]
    exact ⟨placed.1.grown.kept, .inl ⟨granted, h, t, rfl, placed⟩⟩
  · obtain ⟨denied, refused⟩ := Meets.bad_of_run given hr
    have done_eq : done = _ := passes.trans hg
    rw [done_eq]
    exact ⟨refused.kept, .inr ⟨denied, code_recordFailure_ne_none t thread e⟩⟩

/-- A new collection is given out exactly when there is a handle for it. -/
theorem perform_newCollection (sound : s.Sound) (kind : CollectionKind) (thread : Nat) :
    let made := s.perform thread (.newCollection kind)
    (s.Grants 1 ∧ ∃ h t, made = (⟨.handle h, []⟩, t.setLastError thread {}) ∧
        s.countCall.Placed h (.collection (.builder kind)) t) ∨
      ¬ s.Grants 1 ∧ (made.2.lastErrors thread).code ≠ .none := by
  have given : HandsOut (Call.newCollection kind).body s.countCall (fun h => ⟨.handle h, []⟩)
      (.collection (.builder kind)) :=
    (issueCollection_handsOut sound.countCall (Heap.carries_nil _)).bind fun _ => rfl
  exact (perform_handsOut rfl given).2

end State

end ObjectBoundary
