import ObjectBoundary.Json.Decode
import ObjectBoundary.Json.Printer

/-!
# Interface models

The document in which enumerations and interfaces are declared. Types are kept in their spelling;
they are resolved when the document is registered.
-/

namespace ObjectBoundary

structure EnumMember where
  name : String
  value : Int64
  deriving DecidableEq, Repr, Inhabited

structure EnumDecl where
  name : String
  backing : String := "int32_t"
  values : List EnumMember := []
  deriving DecidableEq, Repr, Inhabited

structure PropertyDecl where
  name : String
  type : String
  writable : Bool := false
  deriving DecidableEq, Repr, Inhabited

structure ParameterDecl where
  name : String
  type : String
  deriving DecidableEq, Repr, Inhabited

structure MethodDecl where
  name : String
  returnType : String := "void"
  parameters : List ParameterDecl := []
  deriving DecidableEq, Repr, Inhabited

structure InterfaceDecl where
  name : String
  properties : List PropertyDecl := []
  methods : List MethodDecl := []
  deriving DecidableEq, Repr, Inhabited

structure Model where
  space : String := ""
  enums : List EnumDecl := []
  interfaces : List InterfaceDecl := []
  deriving DecidableEq, Repr, Inhabited

open Json (Decoded record required optional asText asBool asInteger asList)

namespace EnumMember

def ofJson (json : Json) : Decoded EnumMember := do
  match ← record "an enum value" ["name", "value"] json with
  | [name, value] =>
    let name ← required "name" asText name
    let value ← required "value" (asInteger Int64.minValue.toInt Int64.maxValue.toInt) value
    return { name, value := Int64.ofInt value }
  | _ => throw .malformed

def toJson (m : EnumMember) : Json :=
  .ofFields [("name", .ofText m.name), ("value", .integer m.value.toInt)]

end EnumMember

namespace EnumDecl

def ofJson (json : Json) : Decoded EnumDecl := do
  match ← record "an enum" ["name", "backing", "values"] json with
  | [name, backing, values] =>
    let name ← required "name" asText name
    let backing ← optional "int32_t" asText backing
    let values ← optional [] (asList EnumMember.ofJson) values
    return { name, backing, values }
  | _ => throw .malformed

def toJson (e : EnumDecl) : Json :=
  .ofFields [("name", .ofText e.name), ("backing", .ofText e.backing),
    ("values", .array (e.values.map EnumMember.toJson))]

end EnumDecl

namespace PropertyDecl

def ofJson (json : Json) : Decoded PropertyDecl := do
  match ← record "a property" ["name", "type", "writable"] json with
  | [name, type, writable] =>
    let name ← required "name" asText name
    let type ← required "type" asText type
    let writable ← optional false asBool writable
    return { name, type, writable }
  | _ => throw .malformed

def toJson (p : PropertyDecl) : Json :=
  .ofFields [("name", .ofText p.name), ("type", .ofText p.type), ("writable", .bool p.writable)]

end PropertyDecl

namespace ParameterDecl

def ofJson (json : Json) : Decoded ParameterDecl := do
  match ← record "a parameter" ["name", "type"] json with
  | [name, type] =>
    let name ← required "name" asText name
    let type ← required "type" asText type
    return { name, type }
  | _ => throw .malformed

def toJson (p : ParameterDecl) : Json :=
  .ofFields [("name", .ofText p.name), ("type", .ofText p.type)]

end ParameterDecl

namespace MethodDecl

def ofJson (json : Json) : Decoded MethodDecl := do
  match ← record "a method" ["name", "return_type", "parameters"] json with
  | [name, returnType, parameters] =>
    let name ← required "name" asText name
    let returnType ← optional "void" asText returnType
    let parameters ← optional [] (asList ParameterDecl.ofJson) parameters
    return { name, returnType, parameters }
  | _ => throw .malformed

def toJson (m : MethodDecl) : Json :=
  .ofFields [("name", .ofText m.name), ("return_type", .ofText m.returnType),
    ("parameters", .array (m.parameters.map ParameterDecl.toJson))]

end MethodDecl

namespace InterfaceDecl

def ofJson (json : Json) : Decoded InterfaceDecl := do
  match ← record "an interface" ["name", "properties", "methods"] json with
  | [name, properties, methods] =>
    let name ← required "name" asText name
    let properties ← optional [] (asList PropertyDecl.ofJson) properties
    let methods ← optional [] (asList MethodDecl.ofJson) methods
    return { name, properties, methods }
  | _ => throw .malformed

def toJson (i : InterfaceDecl) : Json :=
  .ofFields [("name", .ofText i.name),
    ("properties", .array (i.properties.map PropertyDecl.toJson)),
    ("methods", .array (i.methods.map MethodDecl.toJson))]

end InterfaceDecl

namespace Model

def ofJson (json : Json) : Decoded Model := do
  match ← record "an interface model" ["namespace", "enums", "interfaces"] json with
  | [space, enums, interfaces] =>
    let space ← optional "" asText space
    let enums ← optional [] (asList EnumDecl.ofJson) enums
    let interfaces ← optional [] (asList InterfaceDecl.ofJson) interfaces
    return { space, enums, interfaces }
  | _ => throw .malformed

def toJson (m : Model) : Json :=
  .ofFields [("namespace", .ofText m.space), ("enums", .array (m.enums.map EnumDecl.toJson)),
    ("interfaces", .array (m.interfaces.map InterfaceDecl.toJson))]

def parse (s : String) : Decoded Model := Json.decode ofJson s

def print (m : Model) : String := m.toJson.indented

end Model

end ObjectBoundary
