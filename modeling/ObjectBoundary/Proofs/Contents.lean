import ObjectBoundary.Proofs.Conversion
import ObjectBoundary.Proofs.Entry.Effects
import ObjectBoundary.Proofs.Marshal.Delivery

/-!
# The content of results

What a caller can find out about a result: a number or a truth value by itself, a text and the items
of a collection behind a handle. An argument of the type of a property says its content, and a
result that shows a value can be passed on as it is.
-/

namespace ObjectBoundary

open Op State

/-- What a caller can find out about a result. -/
inductive Content where
  /-- A number or a truth value speaks for itself. -/
  | plain (reply : Reply)
  /-- A text, or the keys and values of a collection, behind a handle. -/
  | held (value : Value)
  deriving Inhabited

namespace Content

/-- The content of a value that crosses the boundary with a kind. -/
def ofValue (kind : Kind) : Value → Content
  | .bool b => .plain (.bool b)
  | .enumerator n => .plain (if kind = .i32 then .i32 n.toInt32 else .i64 n)
  | value => .held value

end Content

def Payload.value? : Payload → Option Value
  | .text content => some (.str content)
  | .collection c => some c.toValue
  | _ => none

/-- The boundary value by which a caller passes a result on. -/
def Reply.asArgument : Reply → Wire
  | .bool b => .bool b
  | .i32 n => .i32 n
  | .i64 n => .i64 n
  | .handle h => .handle h
  | .wire w => w
  | _ => .void

/-- The types of the properties that can be set. -/
def Ty.isSettable : Ty → Bool
  | .bool | .string | .array .string | .enumeration _ => true
  | _ => false

/-- Settable types by cases. -/
theorem Ty.settable_cases {ty : Ty} (settable : ty.isSettable) :
    ty = .bool ∨ ty = .string ∨ ty = .array .string ∨ ∃ id, ty = .enumeration id := by
  unfold isSettable at settable
  split at settable <;> simp_all

theorem Payload.copies_array {c : Collection} {items : List Value}
    (copies : (Payload.collection c).Copies (.array items)) :
    c.kind = .array ∧ c.toValue = .array items := by
  obtain ⟨kind_eq, entries_eq⟩ := Prod.mk.inj (Option.some.inj copies)
  refine ⟨kind_eq.symm, ?_⟩
  rw [Collection.toValue, ← kind_eq, ← entries_eq]
  simp [Function.comp_def, Entry.item]

/-- Texts in an array come in as they are. -/
theorem Registry.converts_texts {r : Registry} {value made : Value}
    (converts : r.Converts (.array .string) value made) :
    ∃ items, value = .array items ∧ made = .array items := by
  obtain ⟨items, converted, rfl, all, rfl⟩ := converts
  have same : items = converted := by
    rw [← List.forall₂_eq_eq_eq]
    refine all.imp fun item made text => ?_
    obtain ⟨_, rfl, rfl⟩ := text
    rfl
  exact ⟨items, rfl, by rw [same]⟩

namespace State

variable {s t : State} {w : Wire} {ty : Ty} {value : Value} {first : Nat}

def content? (s : State) : Reply → Option Content
  | .handle h =>
    ((s.handles.bound? h).bind fun ref => (s.heap.payloadAt ref.number).bind Payload.value?).map
      .held
  | reply => some (.plain reply)

theorem Points.content? {ref : Ref} {p : Payload} (points : s.Points w ref p)
    (has : p.value? = some value) : s.content? (.ofWire .handle w) = some (.held value) := by
  simp only [State.content?, Reply.ofWire, points.1, points.2, Option.bind_some, has,
    Option.map_some]

/-- A string that is given for a text has it as its content. -/
theorem Shows.content?_str {h : Handle} {text : String}
    (shows : s.Shows first (.str text) (.handle h)) :
    s.content? (.handle h) = some (.held (.str text)) := by
  obtain ⟨ref, p, ⟨g, same, bound⟩, _, held, copies⟩ := shows
  have same : h = g := congrArg Wire.handleBits same
  subst same
  cases p with
  | text content =>
    cases copies
    exact Points.content? (w := .handle h) ⟨bound, held⟩ rfl
  | collection c => cases copies
  | _ => exact copies.elim

/-- What a boundary value says under a settable type is its content. -/
theorem Says.content? (settable : ty.isSettable) (said : s.Says w ty value) :
    s.content? (.ofWire (s.registry.kindOf ty) w) =
      some (.ofValue (s.registry.kindOf ty) value) := by
  obtain ⟨kind, said⟩ := said
  rcases Ty.settable_cases settable with rfl | rfl | rfl | ⟨id, rfl⟩
  · cases said
    rfl
  · obtain ⟨ref, text, points, _, rfl⟩ := said
    exact points.content? rfl
  · obtain ⟨ref, c, points, _, converts⟩ := said
    obtain ⟨items, content_eq, rfl⟩ := Registry.converts_texts converts
    exact points.content? (congrArg some content_eq)
  · obtain ⟨n, d, rfl, found, _, number⟩ := said
    cases backing : d.backing with
    | i32 =>
      have width : s.registry.kindOf (.enumeration id) = .i32 := by
        simp only [Registry.kindOf, found, backing]
      rw [backing] at number
      have bits : n.toInt32 = w.i32Bits := by
        rw [← Int32.toInt_toInt64, Int64.toInt_inj] at number
        rw [number, Int32.toInt32_toInt64]
      rw [width, Content.ofValue, if_pos rfl, bits]
      rfl
    | i64 =>
      have width : s.registry.kindOf (.enumeration id) = .i64 := by
        simp only [Registry.kindOf, found, backing]
      rw [backing] at number
      rw [width, Content.ofValue, if_neg (by decide), Int64.toInt_inj.mp number]
      rfl

/-- What is shown under a settable type says the value, and can be passed on. -/
theorem Shows.says (sound : s.Sound) (settable : ty.isSettable)
    (typed : s.registry.HasType ty value) (kind : w.kind? = some (s.registry.kindOf ty))
    (shows : s.Shows first value w) : s.Says w ty value := by
  refine ⟨kind, ?_⟩
  rcases Ty.settable_cases settable with rfl | rfl | rfl | ⟨id, rfl⟩
  · cases typed with
    | bool b =>
      have same : w = .bool b := shows
      rw [same]
      exact congrArg Value.bool (Wire.boolBits_bool b).symm
  · cases typed with
    | str text =>
      obtain ⟨ref, p, ⟨h, rfl, bound⟩, _, held, copies⟩ := shows
      cases p with
      | text content =>
        cases copies
        have tag_eq : ref.tag = .string := sound.heap.fits_of_holds (sound.has bound) held
        exact ⟨ref, text, ⟨bound, held⟩, tag_eq, rfl⟩
      | collection c => cases copies
      | _ => exact copies.elim
  · cases typed with
    | array typed =>
      obtain ⟨ref, p, ⟨h, rfl, bound⟩, _, held, copies⟩ := shows
      cases p with
      | collection c =>
        obtain ⟨kind_eq, content_eq⟩ := Payload.copies_array copies
        have tag_eq := (sound.heap.fits_of_holds (sound.has bound) held).1
        refine ⟨ref, c, ⟨bound, held⟩, by rw [tag_eq, kind_eq]; rfl, ?_⟩
        rw [content_eq]
        exact Registry.conform_eq_ok_iff.mp (Registry.HasType.array typed).conform_eq
      | text content => cases copies
      | _ => exact copies.elim
  · cases typed with
    | @enumerator _ d n found declared =>
      refine ⟨n, d, rfl, found, declared, ?_⟩
      simp only [Registry.kindOf, found] at kind
      cases backing : d.backing with
      | i32 =>
        rw [backing] at kind
        rcases shows with rfl | ⟨rfl, exact⟩
        · cases kind
        · simp only [Wire.i32Bits_i32]
          rw [← Int32.toInt_toInt64, exact]
      | i64 =>
        rw [backing] at kind
        rcases shows with rfl | ⟨rfl, exact⟩
        · simp only [Wire.i64Bits_i64]
        · cases kind

theorem Shows.asArgument {kind : Kind} (shows : s.Shows first value w)
    (settable : ty.isSettable) (typed : s.registry.HasType ty value)
    (kind_eq : w.kind? = some kind) : (Reply.ofWire kind w).asArgument = w := by
  rcases Ty.settable_cases settable with rfl | rfl | rfl | ⟨id, rfl⟩
  · cases typed with
    | bool b =>
      have same : w = .bool b := shows
      subst same
      cases kind_eq
      exact congrArg Wire.bool (Wire.boolBits_bool b)
  · cases typed with
    | str text =>
      obtain ⟨_, _, ⟨h, rfl, _⟩, _⟩ := shows
      cases kind_eq
      rfl
  · cases typed with
    | array typed =>
      obtain ⟨_, _, ⟨h, rfl, _⟩, _⟩ := shows
      cases kind_eq
      rfl
  · cases typed with
    | @enumerator _ d n found declared =>
      rcases shows with rfl | ⟨rfl, _⟩
      · cases kind_eq
        exact congrArg Wire.i64 (Wire.i64Bits_i64 n)
      · cases kind_eq
        exact congrArg Wire.i32 (Wire.i32Bits_i32 _)

/-- The object behind a handle that is shown is one of the new ones. -/
theorem Shows.number_le {g : Handle} {ref : Ref} (shows : s.Shows first value w)
    (settable : ty.isSettable) (typed : s.registry.HasType ty value) (handle : w.handle? = some g)
    (bound : s.handles.bound? g = some ref) : first ≤ ref.number := by
  rcases Ty.settable_cases settable with rfl | rfl | rfl | ⟨id, rfl⟩
  · cases typed with
    | bool b =>
      have same : w = .bool b := shows
      subst same
      cases handle
  · cases typed with
    | str text =>
      obtain ⟨r, _, ⟨h, rfl, named⟩, new, _⟩ := shows
      cases handle
      cases named.symm.trans bound
      exact new
  · cases typed with
    | array typed =>
      obtain ⟨r, _, ⟨h, rfl, named⟩, new, _⟩ := shows
      cases handle
      cases named.symm.trans bound
      exact new
  · cases typed with
    | @enumerator _ d n found declared =>
      rcases shows with rfl | ⟨rfl, _⟩
      · cases handle
      · cases handle

/-- The texts behind handles are clean, whatever files were loaded. -/
theorem Leads.text_clean (reachable : s.Reachable) {n : Nat} {text : String}
    (held : s.heap.payloadAt n = some (.text text)) : Text.Clean text := by
  induction reachable with
  | refl => cases held
  | step leads step ih =>
    cases step with
    | @call thread call exported =>
      have reached : Reachable _ := leads
      have alters := perform_alters reached.sound reached.forest thread call
      exact (alters.textAt held).elim ih id
    | surroundings options files now => exact ih held

/-- A value that a settable type takes can be handed out. -/
theorem Says.passable (reachable : s.Reachable) (settable : ty.isSettable)
    (said : s.Says w ty value) : value.Passable := by
  rintro text rfl
  obtain ⟨_, said⟩ := said
  rcases Ty.settable_cases settable with rfl | rfl | rfl | ⟨id, rfl⟩
  · cases said
  · obtain ⟨ref, content, points, _, same⟩ := said
    cases same
    exact Leads.text_clean reachable points.2
  · obtain ⟨ref, c, points, _, converts⟩ := said
    obtain ⟨items, _, same⟩ := Registry.converts_texts converts
    cases same
  · obtain ⟨n, d, same, _⟩ := said
    cases same

/-- What a boundary value says is determined. -/
theorem Says.unique {other : Value} (said : s.Says w ty value) (said' : s.Says w ty other) :
    other = value :=
  Except.ok.inj ((inbound_ok_iff.mpr said').symm.trans (inbound_ok_iff.mpr said))

end State

end ObjectBoundary
