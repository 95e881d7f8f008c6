import ObjectBoundary.Model.Ty

/-!
# Descriptors

The registered form of interfaces and enumerations, with every type resolved.
-/

namespace ObjectBoundary

structure Property where
  name : String
  ty : Ty
  readOnly : Bool
  deriving DecidableEq, Repr, Inhabited

structure Parameter where
  name : String
  ty : Ty
  deriving DecidableEq, Repr, Inhabited

structure Method where
  name : String
  parameters : List Parameter
  returns : Ty
  deriving DecidableEq, Repr, Inhabited

structure InterfaceDescriptor where
  id : InterfaceId
  name : String
  properties : List Property
  methods : List Method
  deriving DecidableEq, Repr, Inhabited

namespace InterfaceDescriptor

def property? (d : InterfaceDescriptor) (name : String) : Option Property :=
  d.properties.find? (·.name == name)

def method? (d : InterfaceDescriptor) (name : String) : Option Method :=
  d.methods.find? (·.name == name)

end InterfaceDescriptor

structure EnumDescriptor where
  id : EnumId
  name : String
  backing : Backing
  /-- The enumerators in the order of their declaration. -/
  values : List (String × Int64)
  deriving DecidableEq, Repr, Inhabited

namespace EnumDescriptor

def contains (d : EnumDescriptor) (value : Int64) : Bool :=
  d.values.any (·.2 == value)

/-- The first enumerator with a value. -/
def nameOf? (d : EnumDescriptor) (value : Int64) : Option String :=
  (d.values.find? (·.2 == value)).map (·.1)

def valueOf? (d : EnumDescriptor) (name : String) : Option Int64 :=
  (d.values.find? (·.1 == name)).map (·.2)

end EnumDescriptor

end ObjectBoundary
