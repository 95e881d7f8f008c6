import ObjectBoundary.Tasks.Live

/-!
# Implementations

Properties and methods of the objects that implement an interface, by the names of the members, and
the factories that make such objects.
-/

namespace ObjectBoundary.Op

/-- The failure of a request to an object that implements no interface. -/
def notImplementation {α : Type} (ref : Ref) : Op α := do
  fail (.typeMismatch "interface" ((← get).registry.tagName ref.tag))

def readProperty (ref : Ref) (name : String) : Op Value := do
  match ← payload ref with
  | .task t => consent (t.property name)
  | .project p => consent (p.property name)
  | .manager _ => fail (.domain (.unknownMember "ITaskManager" name))
  | .scripted s => attempt (s.property name)
  | .text _ | .collection _ => notImplementation ref

def writeProperty (ref : Ref) (name : String) (value : Value) : Op Unit := do
  match ← payload ref with
  | .task t => replace ref (.task (← consent (t.withProperty name value)))
  | .project p => replace ref (.project (← consent (p.withProperty name value)))
  | .manager _ => fail (.domain (.unknownMember "ITaskManager" name))
  | .scripted s => replace ref (.scripted (← attempt (s.withProperty name value)))
  | .text _ | .collection _ => notImplementation ref

def callMethod (ref : Ref) (method : String) (arguments : List Value) : Op Value := do
  match ← payload ref with
  | .task t =>
    let (value, t) ← consent (t.invoke (← today) method arguments)
    replace ref (.task t)
    return value
  | .project p => p.invoke ref method arguments
  | .manager m => m.invoke ref method arguments
  | .scripted s =>
    let (value, s) ← attempt (s.invoke method arguments)
    replace ref (.scripted s)
    return value
  | .text _ | .collection _ => notImplementation ref

def manufacture : Factory → Op Payload
  | .task => do
    let id ← freshTaskId
    return .task { id, title := "", createdAt := Timestamp.text (← get).now }
  | .project => return .project { id := ← freshProjectId, name := "" }
  | .manager => return .manager {}
  | .scripted script => do
    match script.create with
    | some act =>
      let _ ← attempt (act.run [])
    | none => pure ()
    return .scripted { script }

/-- A new object of an interface, to which there is no reference yet. -/
def construct (id : InterfaceId) : Op Ref := do
  let s ← get
  match s.factories.lookup id with
  | none => invalid (.noFactory (s.registry.tagName (.interface id)))
  | some factory => create (.interface id) (← manufacture factory)

end ObjectBoundary.Op
