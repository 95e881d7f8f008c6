import ObjectBoundary.Text.Numeral

/-!
# Handles

A handle is a 64-bit word: the generation of its slot in the upper half, and one more than the index
of the slot in the lower half, so that no handle is zero.
-/

namespace ObjectBoundary

structure Handle where
  raw : UInt64
  deriving DecidableEq, Repr, Inhabited

namespace Handle

def null : Handle := ⟨0⟩

def isNull (h : Handle) : Bool := h.raw == 0

def ofParts (index generation : UInt32) : Handle :=
  ⟨(generation.toUInt64 <<< 32) ||| (index.toUInt64 + 1)⟩

/-- The index that the lower half names. A lower half of zero wraps around to an index that no
table reaches. -/
def index (h : Handle) : Nat := ((h.raw &&& 0xffffffff) - 1).toNat

def generation (h : Handle) : UInt32 := (h.raw >>> 32).toUInt32

/-- The spelling of a handle: sixteen hexadecimal digits. -/
def spelling (h : Handle) : String := Text.paddedHex 16 h.raw.toNat

end Handle

end ObjectBoundary
