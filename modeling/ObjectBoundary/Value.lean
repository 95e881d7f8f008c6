import ObjectBoundary.Fault
import ObjectBoundary.Model.Ty
import ObjectBoundary.Widening

/-!
# Native values

The values that implementations work with. Strings and collections are plain data; an object is
named by a reference. Floating-point numbers are bit patterns.
-/

namespace ObjectBoundary

/-- A reference to a managed object: its number and the tag it was made with. -/
structure Ref where
  number : Nat
  tag : Tag
  deriving DecidableEq, Repr, Inhabited

inductive Value where
  | void
  | bool (value : Bool)
  | i32 (value : Int32)
  | i64 (value : Int64)
  | f32 (pattern : UInt32)
  | f64 (pattern : UInt64)
  | str (value : String)
  /-- The integer behind a declared enumerator. -/
  | enumerator (value : Int64)
  | object (ref : Ref)
  | array (items : List Value)
  /-- Entries in insertion order. -/
  | dict (entries : List (Value × Value))
  | set (items : List Value)
  deriving Inhabited

namespace Value

def kindName : Value → String
  | .void => "void"
  | .bool _ => "bool"
  | .i32 _ => "int32_t"
  | .i64 _ => "int64_t"
  | .f32 _ => "float"
  | .f64 _ => "double"
  | .str _ => "string_t"
  | .enumerator _ => "enum"
  | .object _ => "interface"
  | .array _ => "array"
  | .dict _ => "dict"
  | .set _ => "set"

/-- The refusal of a value where another kind is wanted. -/
def unexpected {α : Type} (value : Value) (wanted : String) : Except Refusal α :=
  .error (.expected wanted value.kindName)

/-- The 32-bit integer with the value of a 64-bit one, when it fits. -/
def narrow? (n : Int64) : Option Int32 :=
  if -2147483648 ≤ n.toInt ∧ n.toInt ≤ 2147483647 then some n.toInt32 else none

def asBool : Value → Except Refusal Bool
  | .bool b => .ok b
  | other => other.unexpected "bool"

def asI32 : Value → Except Refusal Int32
  | .i32 n => .ok n
  | .enumerator n =>
    match narrow? n with
    | some m => .ok m
    | none => (Value.enumerator n).unexpected "int32_t"
  | other => other.unexpected "int32_t"

def asI64 : Value → Except Refusal Int64
  | .i32 n => .ok n.toInt64
  | .i64 n => .ok n
  | .enumerator n => .ok n
  | other => other.unexpected "int64_t"

def asF64 : Value → Except Refusal UInt64
  | .f32 pattern => .ok (widen pattern)
  | .f64 pattern => .ok pattern
  | other => other.unexpected "double"

def asEnumerator : Value → Except Refusal Int64
  | .enumerator n => .ok n
  | other => other.unexpected "enum"

def asText : Value → Except Refusal String
  | .str s => .ok s
  | other => other.unexpected "string_t"

def asObject : Value → Except Refusal Ref
  | .object ref => .ok ref
  | other => other.unexpected "interface"

def asArray : Value → Except Refusal (List Value)
  | .array items => .ok items
  | other => other.unexpected "array"

def asDict : Value → Except Refusal (List (Value × Value))
  | .dict entries => .ok entries
  | other => other.unexpected "dict"

def asSet : Value → Except Refusal (List Value)
  | .set items => .ok items
  | other => other.unexpected "set"

mutual

/-- The equality that decides membership in sets and equality of dictionary keys. Floating-point
numbers are compared by their bits, and objects by identity. -/
def same : Value → Value → Bool
  | .void, .void => true
  | .bool a, .bool b => a == b
  | .i32 a, .i32 b => a == b
  | .i64 a, .i64 b => a == b
  | .f32 a, .f32 b => a == b
  | .f64 a, .f64 b => a == b
  | .str a, .str b => a == b
  | .enumerator a, .enumerator b => a == b
  | .object a, .object b => a == b
  | .array a, .array b => sameItems a b
  | .set a, .set b => sameItems a b
  | .dict a, .dict b => sameEntries a b
  | _, _ => false

def sameItems : List Value → List Value → Bool
  | [], [] => true
  | a :: as, b :: bs => a.same b && sameItems as bs
  | _, _ => false

def sameEntries : List (Value × Value) → List (Value × Value) → Bool
  | [], [] => true
  | (k, v) :: as, (l, w) :: bs => k.same l && v.same w && sameEntries as bs
  | _, _ => false

end

mutual

/-- The references that occur in a value, with repetitions. -/
def refs : Value → List Ref
  | .object ref => [ref]
  | .array items => itemRefs items
  | .set items => itemRefs items
  | .dict entries => entryRefs entries
  | _ => []

def itemRefs : List Value → List Ref
  | [] => []
  | item :: items => item.refs ++ itemRefs items

def entryRefs : List (Value × Value) → List Ref
  | [] => []
  | (key, value) :: entries => key.refs ++ value.refs ++ entryRefs entries

end

def argument (arguments : List Value) (index : Nat) : Except Refusal Value :=
  match arguments[index]? with
  | some value => .ok value
  | none => .error (.missingArgument index)

end Value

end ObjectBoundary
