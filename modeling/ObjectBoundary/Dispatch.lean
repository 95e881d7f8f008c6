import ObjectBoundary.Marshal.Inbound
import ObjectBoundary.Marshal.Outbound
import ObjectBoundary.Object.Implementation

/-!
# Requests to members of objects

A request resolves its handle, finds the member in the declaration of the interface, converts the
arguments, and only then reaches the implementation. Nothing is changed before all checks have
passed.
-/

namespace ObjectBoundary.Op

/-- The object behind a handle and the declaration of its interface. -/
def target (handle : Handle) (id : InterfaceId) : Op (Ref × InterfaceDescriptor) := do
  let ref ← resolve handle (some (.interface id))
  match (← get).registry.interface? id with
  | some d => return (ref, d)
  | none => invalid (.unregistered id.label)

def interfaceOf (handle : Handle) : Op InterfaceId := do
  let ref ← resolve handle none
  match ref.tag with
  | .interface id => return id
  | tag => fail (.typeMismatch "interface" ((← get).registry.tagName tag))

def declaredProperty (d : InterfaceDescriptor) (name : String) : Op Property :=
  match d.property? name with
  | some p => pure p
  | none => invalid (.noMember d.name MemberKind.property.name name)

def declaredMethod (d : InterfaceDescriptor) (name : String) : Op Method :=
  match d.method? name with
  | some m => pure m
  | none => invalid (.noMember d.name MemberKind.method.name name)

def getProperty (handle : Handle) (id : InterfaceId) (name : String) : Op Wire := do
  let (ref, d) ← target handle id
  let p ← declaredProperty d name
  outbound (← readProperty ref name) p.ty

def setProperty (handle : Handle) (id : InterfaceId) (name : String) (w : Wire) : Op Unit := do
  let (ref, d) ← target handle id
  let p ← declaredProperty d name
  if p.readOnly then invalid (.readOnly d.name name)
  let value ← inbound w p.ty
  writeProperty ref name value

def inboundArguments : List Wire → List Parameter → Op (List Value)
  | w :: ws, p :: ps => do
    let value ← inbound w p.ty
    return value :: (← inboundArguments ws ps)
  | _, _ => pure []

def invoke (handle : Handle) (id : InterfaceId) (name : String) (ws : List Wire) : Op Wire := do
  let (ref, d) ← target handle id
  let m ← declaredMethod d name
  if ws.length ≠ m.parameters.length then
    invalid (.arity d.name name m.parameters.length ws.length)
  let arguments ← inboundArguments ws m.parameters
  outbound (← callMethod ref name arguments) m.returns

def createObject (id : InterfaceId) : Op Handle := do
  issue (← construct id)

/-- Admits the boundary values of one kind. -/
def expectKind (kind : Kind) (w : Wire) : Op Wire :=
  if w.kind? = some kind then pure w else invalid (.unexpectedTag w.tag.toNat)

end ObjectBoundary.Op
