import ObjectBoundary.Model.Registry

/-!
# Exported symbols

The functions that a binding for a model exports, with their prototypes in C.
-/

namespace ObjectBoundary

structure Symbol where
  name : String
  returns : String
  /-- The parameters, each with its type and its name. -/
  parameters : List (String × String) := []
  deriving DecidableEq, Repr, Inhabited

namespace Symbol

def prototype (s : Symbol) : String :=
  let parameters :=
    if s.parameters.isEmpty then "void"
    else ", ".intercalate (s.parameters.map fun (type, name) => type ++ " " ++ name)
  s.returns ++ " " ++ s.name ++ "(" ++ parameters ++ ");"

/-- The spelling in C of a declared type. -/
def typeName (r : Registry) (space : String) : Ty → String
  | .void => "void"
  | .bool => "bool"
  | .i32 => "int32_t"
  | .i64 => "int64_t"
  | .f32 => "float"
  | .f64 => "double"
  | .string => "IDynamicString_Handle"
  | .enumeration id => r.typeName (.enumeration id)
  | .interface id => r.typeName (.interface id) ++ "_Handle"
  | .array _ => space ++ "Array_Handle"
  | .dict _ _ => space ++ "Dict_Handle"
  | .set _ => space ++ "Set_Handle"

/-- The functions of a property. An array has further ones for its items. -/
def ofProperty (r : Registry) (space interface : String) (p : Property) : List Symbol :=
  let this := (interface ++ "_Handle", "handle")
  let type := typeName r space p.ty
  let getter := interface ++ "_Get" ++ p.name
  let setter := interface ++ "_Set" ++ p.name
  let whole : List Symbol :=
    ⟨getter, type, [this]⟩ ::
      if p.readOnly then [] else [⟨setter, "bool", [this, (type, "value")]⟩]
  match p.ty with
  | .array elem =>
    let item := typeName r space elem
    whole ++ [⟨getter ++ "_Count", "size_t", [this]⟩,
      ⟨getter ++ "_Item", item, [this, ("size_t", "index")]⟩] ++
      if p.readOnly then []
      else [⟨setter ++ "_Clear", "bool", [this]⟩,
        ⟨setter ++ "_Add", "bool", [this, (item, "value")]⟩]
  | _ => whole

/-- The function of a method. One without a result tells whether it succeeded. -/
def ofMethod (r : Registry) (space interface : String) (m : Method) : Symbol :=
  { name := interface ++ "_" ++ m.name
    returns := if m.returns = .void then "bool" else typeName r space m.returns
    parameters := (interface ++ "_Handle", "handle") ::
      m.parameters.map fun p => (typeName r space p.ty, p.name) }

/-- The functions of an interface, in the order of its declaration. -/
def ofInterface (r : Registry) (space : String) (d : InterfaceDescriptor) : List Symbol :=
  let type := d.name ++ "_Handle"
  [⟨d.name ++ "_Create", type, []⟩, ⟨d.name ++ "_AddRef", type, [(type, "handle")]⟩,
    ⟨d.name ++ "_Release", "bool", [(type, "handle")]⟩] ++
    d.properties.flatMap (ofProperty r space d.name) ++
    d.methods.map (ofMethod r space d.name)

/-- The functions for the last error and for collections that a namespace has once. -/
def ofSpace (space : String) : List Symbol :=
  let array := (space ++ "Array_Handle", "handle")
  let dict := (space ++ "Dict_Handle", "handle")
  let set := (space ++ "Set_Handle", "handle")
  [⟨space ++ "_GetLastError", "const char*", []⟩,
    ⟨space ++ "_ClearError", "void", []⟩,
    ⟨space ++ "Array_Count", "size_t", [array]⟩,
    ⟨space ++ "Array_Item", "bool", [array, ("size_t", "index"), ("TypedValue*", "out")]⟩,
    ⟨space ++ "Array_Release", "bool", [array]⟩,
    ⟨space ++ "Dict_Count", "size_t", [dict]⟩,
    ⟨space ++ "Dict_Next", "bool", [dict, ("TypedValue*", "key"), ("TypedValue*", "value")]⟩,
    ⟨space ++ "Dict_Reset", "bool", [dict]⟩,
    ⟨space ++ "Dict_Release", "bool", [dict]⟩,
    ⟨space ++ "Set_Count", "size_t", [set]⟩,
    ⟨space ++ "Set_Next", "bool", [set, ("TypedValue*", "value")]⟩,
    ⟨space ++ "Set_Reset", "bool", [set]⟩,
    ⟨space ++ "Set_Release", "bool", [set]⟩]

end Symbol

end ObjectBoundary
