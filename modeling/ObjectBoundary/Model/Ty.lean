/-!
# Declared types

The types of properties, parameters and results once every name in them is resolved. An interface or
an enumeration is named by its place in the registry.
-/

namespace ObjectBoundary

/-- The place of an interface in the registry. -/
structure InterfaceId where
  index : Nat
  deriving DecidableEq, Repr, Inhabited

structure EnumId where
  index : Nat
  deriving DecidableEq, Repr, Inhabited

namespace InterfaceId

/-- The name used for an interface that the registry does not hold. -/
def label (id : InterfaceId) : String := s!"interface#{id.index}"

end InterfaceId

namespace EnumId

def label (id : EnumId) : String := s!"enum#{id.index}"

end EnumId

/-- The integer width behind an enumeration. -/
inductive Backing where
  | i32
  | i64
  deriving DecidableEq, Repr, Inhabited

namespace Backing

def ofName? : String → Option Backing
  | "int32_t" => some .i32
  | "int64_t" => some .i64
  | _ => none

def name : Backing → String
  | .i32 => "int32_t"
  | .i64 => "int64_t"

/-- Whether a 64-bit value fits the width. -/
def contains : Backing → Int → Bool
  | .i32, n => -2147483648 ≤ n && n ≤ 2147483647
  | .i64, _ => true

end Backing

inductive Ty where
  | void
  | bool
  | i32
  | i64
  | f32
  | f64
  | string
  | enumeration (id : EnumId)
  | interface (id : InterfaceId)
  | array (elem : Ty)
  | dict (key elem : Ty)
  | set (elem : Ty)
  deriving DecidableEq, Repr, Inhabited

namespace Ty

/-- The primitive type with a given spelling. -/
def primitive? : String → Option Ty
  | "void" => some .void
  | "bool" => some .bool
  | "int32_t" => some .i32
  | "int64_t" => some .i64
  | "float" => some .f32
  | "double" => some .f64
  | "string_t" => some .string
  | _ => none

/-- Whether values of the type cross the boundary as handles. -/
def isHandle : Ty → Bool
  | .string | .interface _ | .array _ | .dict _ _ | .set _ => true
  | _ => false

/-- Whether the type may be the key of a dictionary. -/
def isKey : Ty → Bool
  | .string | .i32 | .i64 | .enumeration _ => true
  | _ => false

def containsVoid : Ty → Bool
  | .void => true
  | .array elem | .set elem => elem.containsVoid
  | .dict key elem => key.containsVoid || elem.containsVoid
  | _ => false

end Ty

/-- The kind of object behind a handle. -/
inductive Tag where
  | interface (id : InterfaceId)
  | string
  | array
  | dict
  | set
  deriving DecidableEq, Repr, Inhabited

namespace Ty

/-- The tag of the handles of a type, for the types that cross the boundary as handles. -/
def tag? : Ty → Option Tag
  | .string => some .string
  | .interface id => some (.interface id)
  | .array _ => some .array
  | .dict _ _ => some .dict
  | .set _ => some .set
  | _ => none

end Ty

end ObjectBoundary
