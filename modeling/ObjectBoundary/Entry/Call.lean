import ObjectBoundary.Entry.Binding
import ObjectBoundary.Entry.Enumeration
import ObjectBoundary.Guard

/-!
# Calls across the boundary

Every entry point as data, and what it answers. A call that fails answers the sentinel of its
result: zero, false, the null handle or no text.
-/

namespace ObjectBoundary

/-- The result of an entry point. -/
inductive Reply where
  | unit
  | bool (value : Bool)
  | i32 (value : Int32)
  | i64 (value : Int64)
  | size (value : Nat)
  | f32 (pattern : UInt32)
  | f64 (pattern : UInt64)
  | handle (value : Handle)
  /-- A text that is lent to the caller. -/
  | text (value : Option String)
  | wire (value : Wire)
  deriving DecidableEq, Repr, Inhabited

/-- The result of a call and the values written to its outputs. -/
structure Answer where
  reply : Reply
  written : List Wire := []
  deriving DecidableEq, Repr, Inhabited

/-- One call. An output that is not wanted is one for which the caller gives no place. -/
inductive Call where
  | startUp
  | cleanUp
  | liveHandles
  | create (interface : TextArgument)
  | addRef (handle : Handle)
  | release (handle : Handle)
  | refcount (handle : Handle)
  | lastErrorText
  | lastErrorCode
  | clearLastError
  | getProperty (handle : Handle) (name : TextArgument) (wanted : Bool)
  | setProperty (handle : Handle) (name : TextArgument) (value : Wire)
  /-- Calls a method with a number of the given arguments, if there are any. -/
  | invoke (handle : Handle) (method : TextArgument) (arguments : Option (List Wire)) (count : Nat)
      (wanted : Bool)
  | createText (text : TextArgument)
  | textValue (handle : Handle)
  | textLength (handle : Handle)
  | copyText (handle : Handle)
  | releaseText (handle : Handle)
  | newCollection (kind : CollectionKind)
  | countItems (kind : CollectionKind) (handle : Handle)
  | releaseCollection (kind : CollectionKind) (handle : Handle)
  | push (handle : Handle) (value : Wire)
  | insertMember (handle : Handle) (value : Wire)
  | insertEntry (handle : Handle) (key value : Wire)
  | item (handle : Handle) (index : Nat) (wanted : Bool)
  | nextEntry (handle : Handle) (keyWanted valueWanted : Bool)
  | nextMember (handle : Handle) (wanted : Bool)
  | reset (kind : CollectionKind) (handle : Handle)
  | createAs (role : Role)
  | addRefAs (role : Role) (handle : Handle)
  | releaseAs (role : Role) (handle : Handle)
  | member (binding : Binding) (handle : Handle) (arguments : List Wire)
  | tagCount (handle : Handle)
  | tagItem (handle : Handle) (index : Nat)
  | clearTags (handle : Handle)
  | addTag (handle value : Handle)
  deriving Inhabited

namespace Reply

/-- The result that a boundary value carries. -/
def ofWire (kind : Kind) (w : Wire) : Reply :=
  match kind with
  | .void => .unit
  | .bool => .bool w.boolBits
  | .i32 => .i32 w.i32Bits
  | .i64 => .i64 w.i64Bits
  | .f32 => .f32 w.f32Bits
  | .f64 => .f64 w.f64Bits
  | .handle => .handle w.handleBits

/-- The answer of a call that fails, by the kind of its result. -/
def sentinel : Kind → Reply
  | .void => .unit
  | .bool => .bool false
  | .i32 => .i32 0
  | .i64 => .i64 0
  | .f32 => .f32 0
  | .f64 => .f64 0
  | .handle => .handle .null

end Reply

namespace Call

def sentinel : Call → Reply
  | .startUp | .cleanUp | .clearLastError => .unit
  | .liveHandles | .textLength _ | .countItems _ _ | .tagCount _ => .size 0
  | .refcount _ | .lastErrorCode => .i32 0
  | .lastErrorText | .textValue _ => .text none
  | .create _ | .addRef _ | .createText _ | .copyText _ | .newCollection _ | .createAs _
  | .addRefAs _ _ | .tagItem _ _ => .handle .null
  | .member binding _ _ => Reply.sentinel (binding.result?.getD .bool)
  | .release _ | .getProperty _ _ _ | .setProperty _ _ _ | .invoke _ _ _ _ _ | .releaseText _
  | .releaseCollection _ _ | .push _ _ | .insertMember _ _ | .insertEntry _ _ _ | .item _ _ _
  | .nextEntry _ _ _ | .nextMember _ _ | .reset _ _ | .releaseAs _ _ | .clearTags _
  | .addTag _ _ => .bool false

open Op

/-- Refuses a call that gives no place for its output. -/
def requireOutput (wanted : Bool) : Op Unit :=
  if wanted then pure () else invalid .nullOutput

def ofHandle (op : Op Handle) : Op Answer := return ⟨.handle (← op), []⟩

def ofSize (op : Op Nat) : Op Answer := return ⟨.size (← op), []⟩

def ofDone {α : Type} (op : Op α) : Op Answer := do
  let _ ← op
  return ⟨.bool true, []⟩

/-- The arguments of a call by name. -/
def readArguments (arguments : Option (List Wire)) (count : Nat) : Op (List Wire) :=
  if count = 0 then pure []
  else
    match arguments with
    | some ws => pure (ws.take count)
    | none => invalid .nullArguments

/-- Hands the result of a method to the caller, or gives it back when it is not wanted. -/
def deliver (wanted : Bool) (w : Wire) : Op Answer := do
  if wanted then return ⟨.bool true, [w]⟩
  match w.handle? with
  | some handle =>
    let _ ← Op.release handle none
  | none => pure ()
  return ⟨.bool true, []⟩

/-- What the call does, apart from the bookkeeping of the guard. -/
def body : Call → Op Answer
  | .startUp => do
    modify fun s => { s with log := ⟨true, true⟩ }
    return ⟨.unit, []⟩
  | .cleanUp => return ⟨.unit, []⟩
  | .liveHandles => ofSize do return (← get).handles.live
  | .create interface => ofHandle do
    let name ← check (interface.read "interface name")
    match (← get).registry.interfaceByName? name with
    | some d => createObject d.id
    | none => invalid (.unknownInterface name)
  | .addRef handle => ofHandle (duplicate handle none)
  | .release handle => ofDone (Op.release handle none)
  | .refcount handle => return ⟨.i32 (Int32.ofNat (← Op.refcount handle none)), []⟩
  | .lastErrorText | .lastErrorCode | .clearLastError => return ⟨.unit, []⟩
  | .getProperty handle name wanted => do
    let id ← interfaceOf handle
    let name ← check (name.read "property name")
    requireOutput wanted
    return ⟨.bool true, [← Op.getProperty handle id name]⟩
  | .setProperty handle name value => ofDone do
    let id ← interfaceOf handle
    let name ← check (name.read "property name")
    Op.setProperty handle id name value
  | .invoke handle method arguments count wanted => do
    let id ← interfaceOf handle
    let method ← check (method.read "method name")
    let ws ← readArguments arguments count
    deliver wanted (← Op.invoke handle id method ws)
  | .createText text => ofHandle do issueText (← check (text.read "string value"))
  | .textValue handle => return ⟨.text (some (← readText handle)), []⟩
  | .textLength handle => ofSize do return (← readText handle).utf8ByteSize
  | .copyText handle => ofHandle do issueText (← readText handle)
  | .releaseText handle => ofDone (Op.release handle (some .string))
  | .newCollection kind => ofHandle (Op.newCollection kind)
  | .countItems kind handle => ofSize (Op.countItems handle kind)
  | .releaseCollection kind handle => ofDone (Op.release handle (some kind.tag))
  | .push handle value => ofDone (pushItem handle value)
  | .insertMember handle value => return ⟨.bool (← Op.insertMember handle value), []⟩
  | .insertEntry handle key value => ofDone (Op.insertEntry handle key value)
  | .item handle index wanted => do
    requireOutput wanted
    return ⟨.bool true, [← arrayItem handle index]⟩
  | .nextEntry handle keyWanted valueWanted => do
    requireOutput (keyWanted && valueWanted)
    match ← Op.nextEntry handle with
    | some (key, value) => return ⟨.bool true, [key, value]⟩
    | none => return ⟨.bool false, []⟩
  | .nextMember handle wanted => do
    requireOutput wanted
    match ← Op.nextMember handle with
    | some value => return ⟨.bool true, [value]⟩
    | none => return ⟨.bool false, []⟩
  | .reset kind handle => ofDone (resetCursor handle kind)
  | .createAs role => ofHandle do createObject (role.id (← taskIds))
  | .addRefAs role handle => ofHandle do
    duplicate handle (some (.interface (role.id (← taskIds))))
  | .releaseAs role handle => ofDone do
    Op.release handle (some (.interface (role.id (← taskIds))))
  | .member binding handle arguments => do
    match ← binding.run handle arguments, binding.result? with
    | some w, some kind => return ⟨.ofWire kind w, []⟩
    | _, _ => return ⟨.bool true, []⟩
  | .tagCount handle => ofSize (Op.tagCount handle)
  | .tagItem handle index => ofHandle (Op.tagItem handle index)
  | .clearTags handle => ofDone (Op.clearTags handle)
  | .addTag handle value => ofDone (Op.addTag handle value)

end Call

namespace State

/-- Performs a call of a thread. The three calls about the last error are not calls of their own
account: they pass the guard by. -/
def perform (s : State) (thread : Nat) (call : Call) : Answer × State :=
  match call with
  | .lastErrorText => (⟨.text (some (s.lastErrors thread).message), []⟩, s)
  | .lastErrorCode => (⟨.i32 (Int32.ofNat (s.lastErrors thread).code.number), []⟩, s)
  | .clearLastError => (⟨.unit, []⟩, s.setLastError thread {})
  | call => s.guarded thread ⟨call.sentinel, []⟩ call.body

def performAll (s : State) : List (Nat × Call) → State
  | [] => s
  | (thread, call) :: rest => (s.perform thread call).2.performAll rest

end State

end ObjectBoundary
