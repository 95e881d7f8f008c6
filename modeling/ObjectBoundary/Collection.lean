import ObjectBoundary.Value

/-!
# Collections

Arrays, dictionaries and sets behind handles. A builder is made by a caller, has no declared types
and can be added to; a snapshot is a sealed copy of a native value. Every collection has one cursor
for enumeration.
-/

namespace ObjectBoundary

inductive CollectionKind where
  | array
  | dict
  | set
  deriving DecidableEq, Repr, Inhabited

namespace CollectionKind

def tag : CollectionKind → Tag
  | .array => .array
  | .dict => .dict
  | .set => .set

def name : CollectionKind → String
  | .array => "array"
  | .dict => "dict"
  | .set => "set"

end CollectionKind

/-- One entry; only the entries of dictionaries have keys. -/
structure Entry where
  key : Option Value
  value : Value
  deriving Inhabited

namespace Entry

def item (value : Value) : Entry := ⟨none, value⟩

def refs (entry : Entry) : List Ref :=
  (match entry.key with
    | some key => key.refs
    | none => []) ++ entry.value.refs

def hasKey (key : Value) (entry : Entry) : Bool :=
  match entry.key with
  | some existing => existing.same key
  | none => false

end Entry

/-- Adds an item to the entries of a set, unless it is already there. -/
def addMember (entries : List Entry) (value : Value) : List Entry :=
  if entries.any (·.value.same value) then entries else entries ++ [.item value]

/-- Stores a value under a key: in the place of the first entry with that key, or at the end. -/
def putEntry (key value : Value) : List Entry → List Entry
  | [] => [⟨some key, value⟩]
  | entry :: entries =>
    if entry.hasKey key then { entry with value := value } :: entries
    else entry :: putEntry key value entries

structure Collection where
  kind : CollectionKind
  keyTy : Option Ty := none
  elemTy : Option Ty := none
  isSealed : Bool := false
  entries : List Entry := []
  cursor : Nat := 0
  deriving Inhabited

namespace Collection

/-- An empty collection that a caller can add to. -/
def builder (kind : CollectionKind) : Collection := { kind }

/-- Copies the members of a native set behind entries that there are already, each member once. -/
def copyMembers (entries : List Entry) : List Value → List Entry
  | [] => entries
  | value :: rest =>
    if entries.any (·.value.same value) then copyMembers entries rest
    else copyMembers (entries ++ [.item value]) rest

/-- Copies the pairs of a native dictionary behind entries that there are already. A key is stored
once, with the last value. -/
def copyPairs (entries : List Entry) : List (Value × Value) → List Entry
  | [] => entries
  | (key, value) :: rest =>
    match entries.findIdx? (·.hasKey key) with
    | some place => copyPairs (entries.modify place ({ · with value := value })) rest
    | none => copyPairs (entries ++ [⟨some key, value⟩]) rest

/-- A snapshot keeps of a native set what a builder keeps of the same insertions. -/
theorem copyMembers_eq_foldl (entries : List Entry) (items : List Value) :
    copyMembers entries items = items.foldl addMember entries := by
  induction items generalizing entries with
  | nil => rfl
  | cons value rest ih =>
    rw [copyMembers, List.foldl_cons, addMember]
    split
    · exact ih entries
    · exact ih (entries ++ [.item value])

/-- The walk that stores a pair in a builder is a search for the place of the key. -/
theorem putEntry_eq_findIdx? (key value : Value) (entries : List Entry) :
    putEntry key value entries =
      match entries.findIdx? (·.hasKey key) with
      | some place => entries.modify place ({ · with value := value })
      | none => entries ++ [⟨some key, value⟩] := by
  induction entries with
  | nil => rfl
  | cons entry rest ih =>
    rw [putEntry, List.findIdx?_cons]
    split
    · rfl
    · rw [ih]
      cases rest.findIdx? (·.hasKey key) with
      | none => rfl
      | some place => rfl

/-- A snapshot keeps of a native dictionary what a builder keeps of the same insertions. -/
theorem copyPairs_eq_foldl (entries : List Entry) (pairs : List (Value × Value)) :
    copyPairs entries pairs =
      pairs.foldl (fun entries (key, value) => putEntry key value entries) entries := by
  induction pairs generalizing entries with
  | nil => rfl
  | cons pair rest ih =>
    obtain ⟨key, value⟩ := pair
    simp only [copyPairs, List.foldl_cons, putEntry_eq_findIdx? key value entries]
    cases entries.findIdx? (·.hasKey key) with
    | none => exact ih _
    | some place => exact ih _

def entriesOf? : Value → Option (CollectionKind × List Entry)
  | .array items => some (.array, items.map .item)
  | .set items => some (.set, copyMembers [] items)
  | .dict pairs => some (.dict, copyPairs [] pairs)
  | _ => none

/-- The kind, the key type and the element type of a declared collection type. -/
def declared? : Ty → Option (CollectionKind × Option Ty × Ty)
  | .array elem => some (.array, none, elem)
  | .set elem => some (.set, none, elem)
  | .dict key elem => some (.dict, some key, elem)
  | _ => none

/-- A sealed copy of a native value of a declared collection type. -/
def snapshot (value : Value) (ty : Ty) : Except Fault Collection :=
  match declared? ty with
  | none => .error (.domain .notCollectionType)
  | some (declaredKind, keyTy, elemTy) =>
    match entriesOf? value with
    | none => .error (.domain (.returned value.kindName "a collection"))
    | some (kind, entries) =>
      if kind = declaredKind then
        .ok { kind, keyTy, elemTy := some elemTy, isSealed := true, entries }
      else .error (.domain (.returned kind.name declaredKind.name))

def untypedSnapshot (value : Value) : Except Fault Collection :=
  match entriesOf? value with
  | none => .error (.typeMismatch "collection" value.kindName)
  | some (kind, entries) => .ok { kind, isSealed := true, entries }

def checkWritable (c : Collection) (expected : CollectionKind) : Except Fault Unit :=
  if c.kind ≠ expected then .error (.typeMismatch expected.name c.kind.name)
  else if c.isSealed then .error (.invalidArgument (.sealed c.kind.name))
  else .ok ()

def count (c : Collection) : Nat := c.entries.length

def push (c : Collection) (value : Value) : Except Fault Collection := do
  c.checkWritable .array
  return { c with entries := c.entries ++ [.item value] }

/-- Adds to a set; the answer says whether the value was new. -/
def insert (c : Collection) (value : Value) : Except Fault (Bool × Collection) := do
  c.checkWritable .set
  let entries := addMember c.entries value
  return (!c.entries.any (·.value.same value), { c with entries })

/-- Stores a value under a key; the answer says whether the key was new. -/
def insertEntry (c : Collection) (key value : Value) : Except Fault (Bool × Collection) := do
  c.checkWritable .dict
  return (!c.entries.any (·.hasKey key), { c with entries := putEntry key value c.entries })

def item (c : Collection) (index : Nat) : Except Fault Value :=
  match c.entries[index]? with
  | some entry => .ok entry.value
  | none => .error (.indexOutOfBounds index c.count)

/-- The entry under the cursor; there is none once the enumeration is exhausted. -/
def current? (c : Collection) : Option Entry := c.entries[c.cursor]?

def advance (c : Collection) : Collection := { c with cursor := c.cursor + 1 }

def reset (c : Collection) : Collection := { c with cursor := 0 }

/-- Hands the entry under the cursor to a reader and advances only when the reader succeeds. -/
def nextWith {α : Type} (c : Collection) (read : Entry → Except Fault α) :
    Except Fault (Option α × Collection) :=
  match c.current? with
  | none => .ok (none, c)
  | some entry => do
    let result ← read entry
    return (some result, c.advance)

def toValue (c : Collection) : Value :=
  match c.kind with
  | .array => .array (c.entries.map (·.value))
  | .set => .set (c.entries.map (·.value))
  | .dict => .dict (c.entries.filterMap fun entry => entry.key.map (·, entry.value))

def refs (c : Collection) : List Ref := c.entries.flatMap Entry.refs

end Collection

end ObjectBoundary
