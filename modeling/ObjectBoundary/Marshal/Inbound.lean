import ObjectBoundary.Marshal.Conform
import ObjectBoundary.Text.Access

/-!
# Values that come in

A boundary value is copied into a native value; the caller keeps its handles. With a declared type
the value has to be of that type; without one a collection is taken as it is.
-/

namespace ObjectBoundary.Op

/-- The kind that the tag of a boundary value says. -/
def kindOf (w : Wire) : Op Kind :=
  match w.kind? with
  | some kind => pure kind
  | none => invalid (.unknownTag w.tag.toNat)

/-- The native value of an object: itself, the content of a string or that of a collection. -/
def contentOf (ref : Ref) : Op Value := do
  match ref.tag with
  | .interface _ => return .object ref
  | .string => return .str (← textOf ref)
  | .array | .dict | .set =>
    match ← payload ref with
    | .collection c => return c.toValue
    | _ => fail (.typeMismatch "collection" ((← get).registry.tagName ref.tag))

def typedContentOf (ref : Ref) (ty : Ty) : Op Value := do
  let value ← contentOf ref
  match ref.tag with
  | .array | .dict | .set => check ((← get).registry.conform ty value)
  | .interface _ | .string => return value

/-- The native value of a boundary value of a declared type. -/
def inbound (w : Wire) (ty : Ty) : Op Value := do
  let kind ← kindOf w
  let r := (← get).registry
  let expected := r.kindOf ty
  if kind ≠ expected then
    invalid (.wrongKind expected.name (r.typeName ty) kind.name)
  match ty with
  | .void => return .void
  | .bool => return .bool w.boolBits
  | .i32 => return .i32 w.i32Bits
  | .i64 => return .i64 w.i64Bits
  | .f32 => return .f32 w.f32Bits
  | .f64 => return .f64 w.f64Bits
  | .enumeration id =>
    let n := if kind = .i32 then w.i32Bits.toInt64 else w.i64Bits
    return .enumerator (← check (r.checkEnumerator id n))
  | .string | .interface _ | .array _ | .dict _ _ | .set _ =>
    typedContentOf (← resolve w.handleBits ty.tag?) ty

def inboundUntyped (w : Wire) : Op Value := do
  match ← kindOf w with
  | .void => return .void
  | .bool => return .bool w.boolBits
  | .i32 => return .i32 w.i32Bits
  | .i64 => return .i64 w.i64Bits
  | .f32 => return .f32 w.f32Bits
  | .f64 => return .f64 w.f64Bits
  | .handle => contentOf (← resolve w.handleBits none)

end ObjectBoundary.Op
