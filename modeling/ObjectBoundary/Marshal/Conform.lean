import ObjectBoundary.Collection
import ObjectBoundary.Model.Registry
import ObjectBoundary.Wire

/-!
# Values of declared types

Which boundary kind a declared type has, and the conversion of a native value to a declared type:
integers narrow or widen when they fit, enumerators are validated, and collections are converted
item by item.
-/

namespace ObjectBoundary

namespace Value

/-- Adds a value to a list of distinct values, unless it is already there. -/
def addDistinct (items : List Value) (value : Value) : List Value :=
  if items.any (·.same value) then items else items ++ [value]

/-- The values of a list, each once, in the order of their first occurrences. -/
def distinct (items : List Value) : List Value := items.foldl addDistinct []

end Value

namespace Registry

def kindOf (r : Registry) : Ty → Kind
  | .void => .void
  | .bool => .bool
  | .i32 => .i32
  | .i64 => .i64
  | .f32 => .f32
  | .f64 => .f64
  | .enumeration id =>
    match r.enum? id with
    | some d =>
      match d.backing with
      | .i32 => .i32
      | .i64 => .i64
    | none => .i32
  | .string | .interface _ | .array _ | .dict _ _ | .set _ => .handle

def checkEnumerator (r : Registry) (id : EnumId) (value : Int64) : Except Fault Int64 :=
  match r.enum? id with
  | none => .error (.invalidArgument (.unregistered id.label))
  | some d =>
    if d.contains value then .ok value else .error (.invalidEnumValue d.name value.toInt)

/-- The value of a declared type that a native value stands for. -/
def conform (r : Registry) : Ty → Value → Except Fault Value
  | .void, _ => .ok .void
  | .bool, .bool b => .ok (.bool b)
  | .i32, .i32 n => .ok (.i32 n)
  | .i32, .i64 n =>
    match Value.narrow? n with
    | some m => .ok (.i32 m)
    | none => .error (.typeMismatch (r.typeName .i32) (Value.i64 n).kindName)
  | .i64, .i32 n => .ok (.i64 n.toInt64)
  | .i64, .i64 n => .ok (.i64 n)
  | .f32, .f32 pattern => .ok (.f32 pattern)
  | .f64, .f32 pattern => .ok (.f64 (widen pattern))
  | .f64, .f64 pattern => .ok (.f64 pattern)
  | .enumeration id, .i32 n => (r.checkEnumerator id n.toInt64).map .enumerator
  | .enumeration id, .i64 n => (r.checkEnumerator id n).map .enumerator
  | .enumeration id, .enumerator n => (r.checkEnumerator id n).map .enumerator
  | .string, .str s => .ok (.str s)
  | .interface id, .object ref =>
    if ref.tag = .interface id then .ok (.object ref)
    else .error (.typeMismatch (r.typeName (.interface id)) (r.tagName ref.tag))
  | .array elem, .array items => (items.mapM (r.conform elem)).map .array
  | .set elem, .set items => (items.mapM (r.conform elem)).map fun converted =>
      .set (Value.distinct converted)
  | .dict key elem, .dict entries =>
    (entries.mapM fun (k, v) => do return (← r.conform key k, ← r.conform elem v)).map .dict
  | ty, value => .error (.typeMismatch (r.typeName ty) value.kindName)

end Registry

end ObjectBoundary
