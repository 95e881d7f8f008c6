import Mathlib.Data.List.Nodup
import ObjectBoundary.Proofs.Model.Items
import ObjectBoundary.Text.Map

/-!
# What stands in a map

Under each key of a map stands the value that was written last, and the keys are in strictly
increasing order of their bytes: code points are encoded in UTF-8 so that a greater one has the
greater bytes.
-/

namespace ObjectBoundary

namespace Text

/-! ### The order of bytes -/

def bytes (text : String) : List UInt8 := text.toByteArray.data.toList

variable {a b : String} {c d : Char} {n m : Nat}

theorem bytes_eq_flatMap (text : String) :
    bytes text = text.toList.flatMap String.utf8EncodeChar := by
  rw [bytes, ← String.utf8Encode_toList, List.utf8Encode, List.data_toByteArray]

theorem byte_lt_iff (hn : n < 256) (hm : m < 256) : UInt8.ofNat n < UInt8.ofNat m ↔ n < m := by
  rw [UInt8.lt_iff_toNat_lt, UInt8.toNat_ofNat_of_lt' hn, UInt8.toNat_ofNat_of_lt' hm]

theorem byte_inj (hn : n < 256) (hm : m < 256) : UInt8.ofNat n = UInt8.ofNat m ↔ n = m := by
  rw [← UInt8.toNat_inj, UInt8.toNat_ofNat_of_lt' hn, UInt8.toNat_ofNat_of_lt' hm]

theorem codePoint_lt (c : Char) : c.val.toNat < 0x110000 := by
  have valid := c.valid
  simp only [UInt32.isValidChar, Nat.isValidChar] at valid
  omega

/-- In the first byte in which two characters differ, the smaller one has the smaller byte. -/
theorem encode_lt (lt : c < d) (rest rest' : List UInt8) :
    String.utf8EncodeChar c ++ rest < String.utf8EncodeChar d ++ rest' := by
  have lt : c.val.toNat < d.val.toNat := lt
  have hc := codePoint_lt c
  have hd := codePoint_lt d
  simp only [String.utf8EncodeChar]
  generalize c.val.toNat = n at *
  generalize d.val.toNat = m at *
  -- All bytes in terms of the digits to the base 64.
  have twice (n : Nat) : n / 4096 = n / 64 / 64 := by omega
  have thrice (n : Nat) : n / 262144 = n / 64 / 64 / 64 := by omega
  simp only [twice, thrice]
  split_ifs
  all_goals
    simp (disch := omega) only [List.cons_append, List.nil_append, List.cons_lt_cons_iff,
      byte_lt_iff, byte_inj]
    omega

theorem bytes_lt_of_lt (lt : a < b) : bytes a < bytes b := by
  have lt : a.toList < b.toList := lt
  rw [bytes_eq_flatMap, bytes_eq_flatMap]
  generalize a.toList = cs at lt
  generalize b.toList = ds at lt
  induction lt with
  | @nil d ds =>
    have size := d.utf8Size_pos
    rw [← String.length_utf8EncodeChar] at size
    obtain ⟨byte, bytes, encoded⟩ := List.exists_cons_of_length_pos size
    rw [List.flatMap_cons, encoded]
    exact List.nil_lt_cons _ _
  | rel lt => exact encode_lt lt _ _
  | cons _ ih => exact List.append_left_lt ih

end Text

/-! ### Looking up what was written -/

variable {entries left writes : List (String × String)} {key value other : String}

theorem lookup_reverse (once : (entries.map Prod.fst).Nodup) (key : String) :
    entries.reverse.lookup key = entries.lookup key := by
  have once' : (entries.reverse.map Prod.fst).Nodup := by
    rw [List.map_reverse]
    exact List.nodup_reverse.mpr once
  refine Option.ext fun value => ?_
  rw [lookup_eq_some_iff_mem once', List.mem_reverse, ← lookup_eq_some_iff_mem once]

theorem lookup_putText (key value other : String) (entries : List (String × String)) :
    (putText key value entries).lookup other =
      if other = key then some value else entries.lookup other := by
  induction entries with
  | nil => simp [putText]
  | cons entry entries ih =>
    obtain ⟨first, old⟩ := entry
    -- The entry that was stored is found before all others of its key.
    have stored (value : String) (rest : List (String × String)) :
        ((key, value) :: rest).lookup other =
          if other = key then some value else rest.lookup other := by
      rw [List.lookup_cons]
      by_cases same : other = key
      · simp [same]
      · simp [same, beq_false_of_ne same]
    unfold putText
    split
    · exact stored value _
    · split
      · next above =>
        rw [List.lookup_cons, ih, List.lookup_cons]
        by_cases here : other = first
        · subst here
          simp [String.ne_of_lt above]
        · simp [beq_false_of_ne here]
      · next below above =>
        obtain rfl : key = first :=
          String.le_antisymm (String.not_lt.mp above) (String.not_lt.mp below)
        rw [stored, stored]
        by_cases here : other = key <;> simp [here]

namespace TextMap

variable {map : TextMap}

theorem keys_nodup (map : TextMap) : (map.entries.map Prod.fst).Nodup := by
  refine (List.pairwise_map.mpr ?_ : List.Pairwise (· ≠ ·) _)
  exact map.sorted.imp String.ne_of_lt

theorem get?_eq_some_iff : map.get? key = some value ↔ (key, value) ∈ map.entries :=
  lookup_eq_some_iff_mem map.keys_nodup

@[simp] theorem get?_insert (map : TextMap) (key value other : String) :
    (map.insert key value).get? other = if other = key then some value else map.get? other :=
  lookup_putText key value other map.entries

/-- Under a key stands the value that was stored last, or the one that was there. -/
theorem get?_extend (map : TextMap) (writes : List (String × String)) (key : String) :
    (map.extend writes).get? key = (writes.reverse.lookup key).or (map.get? key) := by
  induction writes generalizing map with
  | nil => rfl
  | cons write writes ih =>
    obtain ⟨last, value⟩ := write
    have rest := ih (map.insert last value)
    rw [get?_insert] at rest
    rw [List.reverse_cons, List.lookup_append, List.lookup_singleton]
    refine rest.trans ?_
    by_cases same : key = last <;> simp [same]

end TextMap

/-! ### What is left of writes -/

/-- What is left of writes: each key that was written stands there once, in the order of the bytes,
with the value that it was given last. -/
structure Remains (writes entries : List (String × String)) : Prop where
  ordered : entries.Pairwise fun a b => Text.bytes a.1 < Text.bytes b.1
  exact : ∀ key value, (key, value) ∈ entries ↔ writes.reverse.lookup key = some value

/-- A map holds the writes: it has what they leave. -/
def TextMap.Holds (map : TextMap) (writes : List (String × String)) : Prop :=
  ∀ key, map.get? key = writes.reverse.lookup key

namespace TextMap.Holds

variable {map : TextMap}

theorem refl (map : TextMap) : map.Holds map.entries := fun key =>
  (lookup_reverse map.keys_nodup key).symm

/-- More writes are stored, or what is left of them. -/
theorem extend (holds : map.Holds writes) {more : List (String × String)}
    (same : ∀ key, left.reverse.lookup key = more.reverse.lookup key) :
    (map.extend left).Holds (writes ++ more) := by
  intro key
  rw [get?_extend, holds key, same key, List.reverse_append, List.lookup_append]

theorem remains (holds : map.Holds writes) : Remains writes map.entries where
  ordered := map.sorted.imp Text.bytes_lt_of_lt
  exact key value := by rw [← get?_eq_some_iff, holds key]

end TextMap.Holds

end ObjectBoundary
