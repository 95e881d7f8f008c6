import ObjectBoundary.Marshal.Inbound
import ObjectBoundary.Marshal.Outbound

/-!
# Collections behind handles

Building, reading and enumerating collections. What is added is copied in and what is read is copied
out. A cursor moves only when the entry under it has reached the caller.
-/

namespace ObjectBoundary.Op

def collection (handle : Handle) (kind : CollectionKind) : Op (Ref × Collection) := do
  let ref ← resolve handle (some kind.tag)
  match ← payload ref with
  | .collection c => return (ref, c)
  | _ => fail (.typeMismatch kind.name "non-collection object")

def newCollection (kind : CollectionKind) : Op Handle := issueCollection (.builder kind)

def countItems (handle : Handle) (kind : CollectionKind) : Op Nat := do
  let (_, c) ← collection handle kind
  return c.count

def pushItem (handle : Handle) (item : Wire) : Op Unit := do
  let (ref, c) ← collection handle .array
  let value ← inboundUntyped item
  replace ref (.collection (← check (c.push value)))

/-- Adds to a set; the answer says whether the value was new. -/
def insertMember (handle : Handle) (item : Wire) : Op Bool := do
  let (ref, c) ← collection handle .set
  let value ← inboundUntyped item
  let (isNew, c) ← check (c.insert value)
  replace ref (.collection c)
  return isNew

/-- A key that a caller passes: a string or an integer. -/
def inboundKey (w : Wire) : Op Value := do
  let key ← inboundUntyped w
  match key with
  | .str _ | .i32 _ | .i64 _ => return key
  | other => invalid (.notKey other.kindName)

def insertEntry (handle : Handle) (key item : Wire) : Op Unit := do
  let (ref, c) ← collection handle .dict
  let key ← inboundKey key
  let value ← inboundUntyped item
  let (_, c) ← check (c.insertEntry key value)
  replace ref (.collection c)

def arrayItem (handle : Handle) (index : Nat) : Op Wire := do
  let (_, c) ← collection handle .array
  outboundAs (← check (c.item index)) c.elemTy

/-- The entry under the cursor of a dictionary, unless the enumeration is exhausted. -/
def nextEntry (handle : Handle) : Op (Option (Wire × Wire)) := do
  let (ref, c) ← collection handle .dict
  match c.current? with
  | none => return none
  | some entry =>
    let key ← outboundAs (entry.key.getD .void) c.keyTy
    let value ←
      tryCatch (outboundAs entry.value c.elemTy) fun failure => do
        discard key
        throw failure
    replace ref (.collection c.advance)
    return some (key, value)

/-- The member under the cursor of a set, unless the enumeration is exhausted. -/
def nextMember (handle : Handle) : Op (Option Wire) := do
  let (ref, c) ← collection handle .set
  match c.current? with
  | none => return none
  | some entry =>
    let value ← outboundAs entry.value c.elemTy
    replace ref (.collection c.advance)
    return some value

def resetCursor (handle : Handle) (kind : CollectionKind) : Op Unit := do
  let (ref, c) ← collection handle kind
  replace ref (.collection c.reset)

end ObjectBoundary.Op
