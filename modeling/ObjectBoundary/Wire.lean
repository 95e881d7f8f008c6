import ObjectBoundary.Handle.Basic

/-!
# Boundary values

A value that crosses the boundary is a tag byte and eight bytes. The byte is kept as it came, so
that an unknown one can be reported. A kind reads only its own width of the eight bytes.
-/

namespace ObjectBoundary

/-- What the tag of a boundary value can say. -/
inductive Kind where
  | void
  | bool
  | i32
  | i64
  | f32
  | f64
  /-- A string, an object or a collection. -/
  | handle
  deriving DecidableEq, Repr, Inhabited

namespace Kind

def ofByte? (byte : Nat) : Option Kind :=
  match byte with
  | 0 => some .void
  | 1 => some .bool
  | 2 => some .i32
  | 3 => some .i64
  | 4 => some .f32
  | 5 => some .f64
  | 6 => some .handle
  | _ => none

def byte : Kind → UInt8
  | .void => 0
  | .bool => 1
  | .i32 => 2
  | .i64 => 3
  | .f32 => 4
  | .f64 => 5
  | .handle => 6

def name : Kind → String
  | .void => "void"
  | .bool => "bool"
  | .i32 => "int32_t"
  | .i64 => "int64_t"
  | .f32 => "float"
  | .f64 => "double"
  | .handle => "handle"

/-- The width in bytes. -/
def size : Kind → Nat
  | .void => 0
  | .bool => 1
  | .i32 | .f32 => 4
  | .i64 | .f64 | .handle => 8

end Kind

structure Wire where
  tag : UInt8
  bits : UInt64
  deriving DecidableEq, Repr, Inhabited

namespace Wire

def kind? (w : Wire) : Option Kind := Kind.ofByte? w.tag.toNat

def void : Wire := ⟨Kind.void.byte, 0⟩

def bool (b : Bool) : Wire := ⟨Kind.bool.byte, b.toUInt64⟩

def i32 (n : Int32) : Wire := ⟨Kind.i32.byte, n.toUInt32.toUInt64⟩

def i64 (n : Int64) : Wire := ⟨Kind.i64.byte, n.toUInt64⟩

/-- A single precision number, by its bit pattern. -/
def f32 (pattern : UInt32) : Wire := ⟨Kind.f32.byte, pattern.toUInt64⟩

def f64 (pattern : UInt64) : Wire := ⟨Kind.f64.byte, pattern⟩

def handle (h : Handle) : Wire := ⟨Kind.handle.byte, h.raw⟩

def boolBits (w : Wire) : Bool := w.bits.toUInt8 != 0

def i32Bits (w : Wire) : Int32 := w.bits.toUInt32.toInt32

def i64Bits (w : Wire) : Int64 := w.bits.toInt64

def f32Bits (w : Wire) : UInt32 := w.bits.toUInt32

def f64Bits (w : Wire) : UInt64 := w.bits

def handleBits (w : Wire) : Handle := ⟨w.bits⟩

/-- The handle in a value whose tag says that there is one. -/
def handle? (w : Wire) : Option Handle :=
  if w.kind? = some .handle then some w.handleBits else none

end Wire

end ObjectBoundary
