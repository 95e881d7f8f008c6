import ObjectBoundary.Json.Decode

/-!
# Rejected models

Why a model cannot be registered.
-/

namespace ObjectBoundary

/-- The two kinds of members of an interface. -/
inductive MemberKind where
  | property
  | method
  deriving DecidableEq, Repr

namespace MemberKind

def name : MemberKind → String
  | .property => "property"
  | .method => "method"

end MemberKind

/-- The place in an interface where a type is written. -/
inductive TypeContext where
  | returnOf (interface method : String)
  | parameterOf (parameter interface method : String)
  | propertyOf (interface property : String)
  deriving DecidableEq, Repr

namespace TypeContext

def text : TypeContext → String
  | .returnOf interface method => s!"return type of {interface}.{method}"
  | .parameterOf parameter interface method => s!"parameter '{parameter}' of {interface}.{method}"
  | .propertyOf interface property => s!"property {interface}.{property}"

end TypeContext

inductive ModelError where
  | parse (cause : Json.DecodeError)
  | malformedType (text : String)
  | duplicateType (name : String)
  | kindConflict (name : String)
  | redefinition (name : String)
  | invalidBacking (enumeration backing : String)
  | duplicateEnumValue (enumeration value : String)
  | enumValueOutOfRange (enumeration value : String)
  | duplicateMember (interface : String) (kind : MemberKind) (name : String)
  | memberConflict (interface name : String)
  | duplicateParameter (interface method name : String)
  | unknownType (name : String) (context : TypeContext)
  | voidNotAllowed (context : TypeContext)
  | invalidDictKey (context : TypeContext)
  deriving DecidableEq, Repr

namespace ModelError

def message : ModelError → String
  | .parse cause => s!"Failed to parse interface model: {cause.message}"
  | .malformedType text => s!"Malformed type reference '{text}'"
  | .duplicateType name => s!"Duplicate type definition: {name}"
  | .kindConflict name => s!"Type '{name}' is already registered as a different kind"
  | .redefinition name => s!"Type '{name}' is already registered with a different definition"
  | .invalidBacking enumeration backing =>
    s!"Invalid enum backing type '{backing}' for {enumeration}"
  | .duplicateEnumValue enumeration value => s!"Duplicate enum value '{value}' in {enumeration}"
  | .enumValueOutOfRange enumeration value =>
    s!"Enum value '{value}' does not fit the backing type of {enumeration}"
  | .duplicateMember interface kind name =>
    s!"Duplicate {kind.name} name '{name}' in interface {interface}"
  | .memberConflict interface name =>
    s!"Property '{name}' conflicts with method name in interface {interface}"
  | .duplicateParameter interface method name =>
    s!"Duplicate parameter name '{name}' in method {interface}.{method}"
  | .unknownType name context => s!"Unknown type '{name}' in {context.text}"
  | .voidNotAllowed context => s!"void is not allowed in {context.text}"
  | .invalidDictKey context =>
    s!"Dictionary key in {context.text} must be a string, integer or enum"

end ModelError

end ObjectBoundary
