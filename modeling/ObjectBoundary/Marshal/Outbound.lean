import ObjectBoundary.Marshal.Conform
import ObjectBoundary.Text.Access

/-!
# Values that go out

A native value becomes a boundary value. Strings and collections are copied into new objects, and
these and all other objects get new handles, which belong to the caller.
-/

namespace ObjectBoundary.Op

def issueCollection (c : Collection) : Op Handle := issueNew c.kind.tag (.collection c)

/-- An enumerator, in the width of its enumeration. -/
def enumeratorOut (id : EnumId) (value : Int64) : Op Wire := do
  let r := (← get).registry
  let value ← check (r.checkEnumerator id value)
  match r.kindOf (.enumeration id) with
  | .i64 => return .i64 value
  | _ => return .i32 value.toInt32

/-- The failure of an implementation that returned something other than was declared. -/
def wrongResult {α : Type} (found : String) (ty : Ty) : Op α := do
  fail (.domain (.returned found ((← get).registry.typeName ty)))

/-- The boundary value of a native value of a declared type. -/
def outbound (value : Value) (ty : Ty) : Op Wire :=
  match ty, value with
  | .void, _ => return .void
  | .bool, .bool b => return .bool b
  | .i32, .i32 n => return .i32 n
  | .i64, .i32 n => return .i64 n.toInt64
  | .i64, .i64 n => return .i64 n
  | .f32, .f32 pattern => return .f32 pattern
  | .f64, .f32 pattern => return .f64 (widen pattern)
  | .f64, .f64 pattern => return .f64 pattern
  | .enumeration id, .enumerator n => enumeratorOut id n
  | .enumeration id, .i64 n => enumeratorOut id n
  | .enumeration id, .i32 n => enumeratorOut id n.toInt64
  | .string, .str s => return .handle (← issueText s)
  | .interface id, .object ref => do
    if ref.tag ≠ .interface id then
      wrongResult ((← get).registry.tagName ref.tag) ty
    return .handle (← issue ref)
  | .array _, value | .dict _ _, value | .set _, value => do
    let c ← check (Collection.snapshot value ty)
    return .handle (← issueCollection c)
  | ty, value => wrongResult value.kindName ty

def outboundUntyped (value : Value) : Op Wire :=
  match value with
  | .void => return .void
  | .bool b => return .bool b
  | .i32 n => return .i32 n
  | .i64 n | .enumerator n => return .i64 n
  | .f32 pattern => return .f32 pattern
  | .f64 pattern => return .f64 pattern
  | .str s => return .handle (← issueText s)
  | .object ref => return .handle (← issue ref)
  | .array _ | .dict _ | .set _ => do
    let c ← check (Collection.untypedSnapshot value)
    return .handle (← issueCollection c)

def outboundAs (value : Value) : Option Ty → Op Wire
  | some ty => outbound value ty
  | none => outboundUntyped value

end ObjectBoundary.Op
