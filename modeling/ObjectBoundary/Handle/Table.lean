import ObjectBoundary.Value

/-!
# The handle table

Slots hold the references behind live handles. Releasing a handle raises the generation of its slot,
so an old copy of the handle is recognised when the slot is used again. A slot whose generation can
rise no further is never used again. Free slots are reused last in, first out.
-/

namespace ObjectBoundary

structure Slot where
  generation : UInt32
  entry : Option Ref
  deriving DecidableEq, Repr, Inhabited

structure HandleTable where
  slots : List Slot := []
  /-- The indices of the slots to reuse, the next one first. -/
  free : List Nat := []
  /-- The number of live handles. -/
  live : Nat := 0
  deriving DecidableEq, Repr, Inhabited

inductive HandleError where
  | null
  | unknown (handle : Handle)
  | stale (handle : Handle)
  | releasedTwice (handle : Handle)
  | mismatch (expected found : Tag)
  | limit (limit : Nat)
  deriving DecidableEq, Repr

namespace HandleTable

def capacity : Nat := UInt32.size - 2

/-- The generation at which a slot is retired. -/
def lastGeneration : UInt32 := 0xffffffff

def occupy (table : HandleTable) (index : Nat) (slot : Slot) (ref : Ref) : Handle × HandleTable :=
  (Handle.ofParts index.toUInt32 slot.generation,
    { table with
      slots := table.slots.set index { slot with entry := some ref }
      live := table.live + 1 })

/-- Binds a reference to a handle that was never given out before. A limit of zero is none. -/
def issue (table : HandleTable) (limit : Nat) (ref : Ref) :
    Except HandleError (Handle × HandleTable) :=
  if limit > 0 ∧ table.live ≥ limit then .error (.limit limit)
  else
    match table.free with
    | index :: rest =>
      match table.slots[index]? with
      | some slot => .ok ({ table with free := rest }.occupy index slot ref)
      | none => .error (.limit table.slots.length)
    | [] =>
      let index := table.slots.length
      if index ≥ capacity then .error (.limit index)
      else
        let slot : Slot := ⟨1, none⟩
        .ok ({ table with slots := table.slots ++ [slot] }.occupy index slot ref)

/-- Why a handle does not name what its slot holds. -/
def dead (slot : Slot) (handle : Handle) : HandleError :=
  if handle.generation ≠ 0 ∧ handle.generation < slot.generation then .stale handle
  else .unknown handle

/-- The slot and the reference behind a live handle. -/
def find (table : HandleTable) (handle : Handle) : Except HandleError (Slot × Ref) :=
  if handle.isNull then .error .null
  else
    match table.slots[handle.index]? with
    | none => .error (.unknown handle)
    | some slot =>
      match slot.entry with
      | some ref => if slot.generation = handle.generation then .ok (slot, ref)
        else .error (dead slot handle)
      | none => .error (dead slot handle)

def checkTag (expected : Option Tag) (ref : Ref) : Except HandleError Unit :=
  match expected with
  | some tag => if ref.tag = tag then .ok () else .error (.mismatch tag ref.tag)
  | none => .ok ()

def resolve (table : HandleTable) (handle : Handle) (expected : Option Tag) :
    Except HandleError Ref := do
  let (_, ref) ← table.find handle
  checkTag expected ref
  return ref

/-- Empties the slot of a live handle and raises its generation. -/
def vacate (table : HandleTable) (index : Nat) (slot : Slot) : HandleTable :=
  let generation := slot.generation + 1
  { slots := table.slots.set index ⟨generation, none⟩
    free := if generation < lastGeneration then index :: table.free else table.free
    live := table.live - 1 }

/-- Ends a live handle of the expected tag and gives back the reference it held. -/
def release (table : HandleTable) (handle : Handle) (expected : Option Tag) :
    Except HandleError (Ref × HandleTable) :=
  match table.find handle with
  | .error (.stale h) => .error (.releasedTwice h)
  | .error e => .error e
  | .ok (slot, ref) => do
    checkTag expected ref
    return (ref, table.vacate handle.index slot)

end HandleTable

end ObjectBoundary
