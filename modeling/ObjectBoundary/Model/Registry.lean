import ObjectBoundary.Model.Descriptor
import ObjectBoundary.Model.Document
import ObjectBoundary.Model.Error
import ObjectBoundary.Model.TypeExpr

/-!
# The registry of interfaces and enumerations

Descriptors are kept in two tables that only grow; a name index finds them. A model is registered as
a whole or not at all: first every declared name gets a place, then every type is resolved, and last
the names that were registered before must be declared as they were.
-/

namespace ObjectBoundary

/-- What a registered name stands for. -/
inductive TypeKey where
  | interface (id : InterfaceId)
  | enumeration (id : EnumId)
  deriving DecidableEq, Repr, Inhabited

structure Registry where
  names : List (String × TypeKey) := []
  interfaces : List InterfaceDescriptor := []
  enums : List EnumDescriptor := []
  deriving Repr, Inhabited

/-- The places given to the declarations of one model. -/
structure Loaded where
  space : String
  interfaces : List (String × InterfaceId)
  enums : List (String × EnumId)
  deriving DecidableEq, Repr, Inhabited

namespace TypeExpr

/-- The type that an expression denotes when names are looked up as given. Keys of dictionaries are
not checked. -/
def denote? (lookup : String → Option TypeKey) : TypeExpr → Option Ty
  | .named name =>
    match Ty.primitive? name with
    | some ty => some ty
    | none => (lookup name).map fun
      | .interface id => .interface id
      | .enumeration id => .enumeration id
  | .array elem => (denote? lookup elem).map .array
  | .set elem => (denote? lookup elem).map .set
  | .dict key elem => do return .dict (← denote? lookup key) (← denote? lookup elem)

/-- The type that an expression denotes at a place in a model. -/
def resolve (lookup : String → Option TypeKey) (context : TypeContext) :
    TypeExpr → Except ModelError Ty
  | .named name =>
    match Ty.primitive? name with
    | some ty => .ok ty
    | none =>
      match lookup name with
      | some (.interface id) => .ok (.interface id)
      | some (.enumeration id) => .ok (.enumeration id)
      | none => .error (.unknownType name context)
  | .array elem => (resolve lookup context elem).map .array
  | .set elem => (resolve lookup context elem).map .set
  | .dict key elem => do
    let key ← resolve lookup context key
    if key.isKey then
      let elem ← resolve lookup context elem
      return .dict key elem
    else throw (.invalidDictKey context)

end TypeExpr

def resolveText (lookup : String → Option TypeKey) (context : TypeContext) (text : String) :
    Except ModelError Ty :=
  match TypeExpr.parse text with
  | .ok e => e.resolve lookup context
  | .error part => .error (.malformedType part)

namespace EnumDecl

/-- The enumerators of a declaration; `seen` holds the names before them. -/
def members (decl : EnumDecl) (backing : Backing) (seen : List String) :
    List EnumMember → Except ModelError (List (String × Int64))
  | [] => .ok []
  | m :: rest =>
    if seen.contains m.name then .error (.duplicateEnumValue decl.name m.name)
    else if !backing.contains m.value.toInt then .error (.enumValueOutOfRange decl.name m.name)
    else do return (m.name, m.value) :: (← decl.members backing (m.name :: seen) rest)

def describe (decl : EnumDecl) (id : EnumId) : Except ModelError EnumDescriptor :=
  match Backing.ofName? decl.backing with
  | none => .error (.invalidBacking decl.name decl.backing)
  | some backing => do
    let values ← decl.members backing [] decl.values
    return { id, name := decl.name, backing, values }

end EnumDecl

namespace InterfaceDecl

variable (lookup : String → Option TypeKey)

def parameters (decl : InterfaceDecl) (method : String) (seen : List String) :
    List ParameterDecl → Except ModelError (List Parameter)
  | [] => .ok []
  | p :: rest =>
    if seen.contains p.name then .error (.duplicateParameter decl.name method p.name)
    else do
      let context := .parameterOf p.name decl.name method
      let ty ← resolveText lookup context p.type
      if ty.containsVoid then throw (.voidNotAllowed context)
      return ⟨p.name, ty⟩ :: (← decl.parameters method (p.name :: seen) rest)

def describeMethods (decl : InterfaceDecl) (seen : List String) :
    List MethodDecl → Except ModelError (List Method)
  | [] => .ok []
  | m :: rest =>
    if seen.contains m.name then .error (.duplicateMember decl.name .method m.name)
    else do
      let context := .returnOf decl.name m.name
      let returns ← resolveText lookup context m.returnType
      if returns ≠ .void && returns.containsVoid then throw (.voidNotAllowed context)
      let parameters ← decl.parameters lookup m.name [] m.parameters
      return ⟨m.name, parameters, returns⟩ :: (← decl.describeMethods (m.name :: seen) rest)

def describeProperties (decl : InterfaceDecl) (seen : List String) :
    List PropertyDecl → Except ModelError (List Property)
  | [] => .ok []
  | p :: rest =>
    if seen.contains p.name then .error (.duplicateMember decl.name .property p.name)
    else if decl.methods.any (·.name == p.name) then .error (.memberConflict decl.name p.name)
    else do
      let context := .propertyOf decl.name p.name
      let ty ← resolveText lookup context p.type
      if ty.containsVoid then throw (.voidNotAllowed context)
      return ⟨p.name, ty, !p.writable⟩ :: (← decl.describeProperties (p.name :: seen) rest)

def describe (decl : InterfaceDecl) (id : InterfaceId) :
    Except ModelError InterfaceDescriptor := do
  let methods ← decl.describeMethods lookup [] decl.methods
  let properties ← decl.describeProperties lookup [] decl.properties
  return { id, name := decl.name, properties, methods }

end InterfaceDecl

namespace Registry

def lookup? (r : Registry) (name : String) : Option TypeKey := r.names.lookup name

def interface? (r : Registry) (id : InterfaceId) : Option InterfaceDescriptor :=
  r.interfaces[id.index]?

def enum? (r : Registry) (id : EnumId) : Option EnumDescriptor := r.enums[id.index]?

def interfaceByName? (r : Registry) (name : String) : Option InterfaceDescriptor :=
  match r.lookup? name with
  | some (.interface id) => r.interface? id
  | _ => none

def enumByName? (r : Registry) (name : String) : Option EnumDescriptor :=
  match r.lookup? name with
  | some (.enumeration id) => r.enum? id
  | _ => none

def tagName (r : Registry) : Tag → String
  | .interface id =>
    match r.interface? id with
    | some d => d.name
    | none => id.label
  | .string => "string"
  | .array => "array"
  | .dict => "dict"
  | .set => "set"

def typeName (r : Registry) : Ty → String
  | .void => "void"
  | .bool => "bool"
  | .i32 => "int32_t"
  | .i64 => "int64_t"
  | .f32 => "float"
  | .f64 => "double"
  | .string => "string_t"
  | .enumeration id =>
    match r.enum? id with
    | some d => d.name
    | none => id.label
  | .interface id => r.tagName (.interface id)
  | .array elem => "array<" ++ r.typeName elem ++ ">"
  | .set elem => "set<" ++ r.typeName elem ++ ">"
  | .dict key elem => "dict<" ++ r.typeName key ++ "," ++ r.typeName elem ++ ">"

/-- The key of a declared enumeration: the one it has, or the next free place. -/
def reserveEnum (r : Registry) (name : String) (next : Nat) : Except ModelError (EnumId × Nat) :=
  match r.lookup? name with
  | some (.enumeration id) => .ok (id, next)
  | some (.interface _) => .error (.kindConflict name)
  | none => .ok (⟨next⟩, next + 1)

def reserveInterface (r : Registry) (name : String) (next : Nat) :
    Except ModelError (InterfaceId × Nat) :=
  match r.lookup? name with
  | some (.interface id) => .ok (id, next)
  | some (.enumeration _) => .error (.kindConflict name)
  | none => .ok (⟨next⟩, next + 1)

/-- Gives places to the declared enumerations in order; `taken` holds the names declared so far. -/
def reserveEnums (r : Registry) (next : Nat) (taken : List String) :
    List EnumDecl → Except ModelError (List (EnumDecl × EnumId))
  | [] => .ok []
  | decl :: rest => do
    let (id, next) ← r.reserveEnum decl.name next
    if taken.contains decl.name then throw (.duplicateType decl.name)
    return (decl, id) :: (← r.reserveEnums next (decl.name :: taken) rest)

def reserveInterfaces (r : Registry) (next : Nat) (taken : List String) :
    List InterfaceDecl → Except ModelError (List (InterfaceDecl × InterfaceId))
  | [] => .ok []
  | decl :: rest => do
    let (id, next) ← r.reserveInterface decl.name next
    if taken.contains decl.name then throw (.duplicateType decl.name)
    return (decl, id) :: (← r.reserveInterfaces next (decl.name :: taken) rest)

def declaredNames (enums : List (EnumDecl × EnumId))
    (interfaces : List (InterfaceDecl × InterfaceId)) : List (String × TypeKey) :=
  enums.map (fun (decl, id) => (decl.name, .enumeration id)) ++
    interfaces.map fun (decl, id) => (decl.name, .interface id)

/-- A name is first sought among the declarations of the model itself. -/
def lookupWith (r : Registry) (declared : List (String × TypeKey)) (name : String) :
    Option TypeKey :=
  (declared.lookup name).or (r.lookup? name)

/-- The declared enumerations that were registered before are declared as they were. -/
def checkEnums (r : Registry) : List EnumDescriptor → Except ModelError Unit
  | [] => .ok ()
  | d :: rest =>
    match r.enum? d.id with
    | some existing =>
      if existing = d then r.checkEnums rest else .error (.redefinition d.name)
    | none => r.checkEnums rest

def checkInterfaces (r : Registry) : List InterfaceDescriptor → Except ModelError Unit
  | [] => .ok ()
  | d :: rest =>
    match r.interface? d.id with
    | some existing =>
      if existing = d then r.checkInterfaces rest else .error (.redefinition d.name)
    | none => r.checkInterfaces rest

/-- Adds the descriptors that are new. -/
def commit (r : Registry) (enums : List EnumDescriptor) (interfaces : List InterfaceDescriptor) :
    Registry :=
  let newEnums := enums.filter fun d => r.enums.length ≤ d.id.index
  let newInterfaces := interfaces.filter fun d => r.interfaces.length ≤ d.id.index
  { names := r.names ++ newEnums.map (fun d => (d.name, TypeKey.enumeration d.id)) ++
      newInterfaces.map (fun d => (d.name, TypeKey.interface d.id))
    interfaces := r.interfaces ++ newInterfaces
    enums := r.enums ++ newEnums }

/-- Registers every declaration of a model. The tables are written only after the last check, so a
refusal comes without a registry and leaves the given one alone. -/
def load (r : Registry) (model : Model) : Except ModelError (Loaded × Registry) := do
  let enumPlaces ← r.reserveEnums r.enums.length [] model.enums
  let interfacePlaces ← r.reserveInterfaces r.interfaces.length (model.enums.map (·.name))
    model.interfaces
  let lookup := r.lookupWith (declaredNames enumPlaces interfacePlaces)
  let enums ← enumPlaces.mapM fun (decl, id) => decl.describe id
  let interfaces ← interfacePlaces.mapM fun (decl, id) => decl.describe lookup id
  r.checkEnums enums
  r.checkInterfaces interfaces
  let loaded : Loaded :=
    { space := model.space
      interfaces := interfaces.map fun d => (d.name, d.id)
      enums := enums.map fun d => (d.name, d.id) }
  return (loaded, r.commit enums interfaces)

def loadText (r : Registry) (text : String) : Except ModelError (Loaded × Registry) :=
  match Model.parse text with
  | .ok model => r.load model
  | .error cause => .error (.parse cause)

end Registry

namespace Loaded

def interface? (l : Loaded) (name : String) : Option InterfaceId := l.interfaces.lookup name

def enum? (l : Loaded) (name : String) : Option EnumId := l.enums.lookup name

end Loaded

end ObjectBoundary
