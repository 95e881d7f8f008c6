import Mathlib.Algebra.Order.Ring.Nat
import ObjectBoundary.Handle.Basic

/-!
# Handles as words

The two halves of a handle. Packing an index and a generation loses nothing as long as one more than
the index fits the lower half, and every word whose lower half is not zero is such a packing.
-/

namespace ObjectBoundary.Handle

theorem raw_ofParts {i : Nat} (hi : i + 1 < 2 ^ 32) (g : UInt32) :
    (ofParts i.toUInt32 g).raw.toNat = g.toNat * 2 ^ 32 + (i + 1) := by
  have hnat : i.toUInt32.toNat = i := UInt32.toNat_ofNat_of_lt' (by simp only [UInt32.size]; omega)
  have hlow : (i.toUInt32.toUInt64 + 1).toNat = i + 1 := by
    simp only [UInt64.toNat_add, UInt32.toNat_toUInt64, UInt64.reduceToNat, hnat]
    omega
  have hhigh : (g.toUInt64 <<< 32).toNat = g.toNat <<< 32 := by
    have := g.toNat_lt
    simp only [UInt64.toNat_shiftLeft, UInt32.toNat_toUInt64, UInt64.reduceToNat, Nat.reduceMod,
      Nat.shiftLeft_eq]
    omega
  have hor := Nat.shiftLeft_add_eq_or_of_lt hi g.toNat
  simp only [ofParts, UInt64.toNat_or, hlow, hhigh]
  rw [← hor, Nat.shiftLeft_eq]

theorem toNat_index (h : Handle) :
    h.index = if h.raw.toNat % 2 ^ 32 = 0 then 2 ^ 64 - 1 else h.raw.toNat % 2 ^ 32 - 1 := by
  have hand : (h.raw &&& 0xffffffff).toNat = h.raw.toNat % 2 ^ 32 := by
    rw [UInt64.toNat_and]
    exact Nat.and_two_pow_sub_one_eq_mod h.raw.toNat 32
  simp only [index, UInt64.toNat_sub, hand, UInt64.reduceToNat]
  split <;> omega

theorem toNat_generation (h : Handle) : h.generation.toNat = h.raw.toNat / 2 ^ 32 := by
  have := h.raw.toNat_lt
  simp only [generation, UInt64.toNat_toUInt32, UInt64.toNat_shiftRight, UInt64.reduceToNat,
    Nat.reduceMod, Nat.shiftRight_eq_div_pow]
  omega

theorem index_ofParts {i : Nat} (hi : i + 1 < 2 ^ 32) (g : UInt32) :
    (ofParts i.toUInt32 g).index = i := by
  rw [toNat_index, raw_ofParts hi]
  split <;> omega

theorem generation_ofParts {i : Nat} (hi : i + 1 < 2 ^ 32) (g : UInt32) :
    (ofParts i.toUInt32 g).generation = g := by
  apply UInt32.toNat_inj.mp
  rw [toNat_generation, raw_ofParts hi]
  omega

theorem isNull_iff (h : Handle) : h.isNull = true ↔ h = null := by
  cases h
  simp [isNull, null]

/-- A handle is determined by its halves, when its index is one that a table can have. -/
theorem eq_of_parts {h k : Handle} (hi : h.index + 1 < 2 ^ 32) (index : h.index = k.index)
    (generation : h.generation = k.generation) : h = k := by
  have hg := congrArg UInt32.toNat generation
  rw [toNat_generation, toNat_generation] at hg
  rw [toNat_index] at hi
  rw [toNat_index, toNat_index] at index
  have hraw : h.raw = k.raw := by
    apply UInt64.toNat_inj.mp
    have := h.raw.toNat_lt
    have := k.raw.toNat_lt
    split at hi
    · omega
    · split at index
      · omega
      · split at index <;> omega
  cases h
  cases k
  exact congrArg Handle.mk hraw

theorem not_isNull_of_index {h : Handle} (hi : h.index + 1 < 2 ^ 32) : h.isNull = false := by
  rw [Bool.eq_false_iff]
  intro hnull
  rw [(isNull_iff h).mp hnull, toNat_index] at hi
  exact absurd hi (by decide)

end ObjectBoundary.Handle
