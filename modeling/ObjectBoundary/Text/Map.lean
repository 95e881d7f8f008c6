/-!
# Maps from texts to texts

The entries stand in strictly increasing order of their keys, compared code point by code point;
that is also the order of their UTF-8 bytes. A map therefore has one representation.
-/

namespace ObjectBoundary

/-- The first entry replaced, or a new one put before the first greater key. -/
def putText (key value : String) : List (String × String) → List (String × String)
  | [] => [(key, value)]
  | (other, old) :: rest =>
    if key < other then (key, value) :: (other, old) :: rest
    else if other < key then (other, old) :: putText key value rest
    else (other, value) :: rest

theorem mem_putText {key value : String} {entries : List (String × String)} {e : String × String}
    (h : e ∈ putText key value entries) : e.1 = key ∨ ∃ old, (e.1, old) ∈ entries := by
  induction entries with
  | nil => simp_all [putText]
  | cons head rest ih =>
    obtain ⟨other, old⟩ := head
    unfold putText at h
    split at h
    · rcases List.mem_cons.1 h with rfl | h
      · exact .inl rfl
      · exact .inr ⟨e.2, h⟩
    · split at h
      · rcases List.mem_cons.1 h with rfl | h
        · exact .inr ⟨old, List.mem_cons_self ..⟩
        · rcases ih h with h | ⟨v, h⟩
          · exact .inl h
          · exact .inr ⟨v, List.mem_cons_of_mem _ h⟩
      · rcases List.mem_cons.1 h with rfl | h
        · exact .inr ⟨old, List.mem_cons_self ..⟩
        · exact .inr ⟨e.2, List.mem_cons_of_mem _ h⟩

theorem pairwise_putText (key value : String) {entries : List (String × String)}
    (h : entries.Pairwise fun a b => a.1 < b.1) :
    (putText key value entries).Pairwise fun a b => a.1 < b.1 := by
  induction entries with
  | nil => simp [putText]
  | cons head rest ih =>
    obtain ⟨other, old⟩ := head
    obtain ⟨first, tail⟩ := List.pairwise_cons.1 h
    unfold putText
    split
    next below =>
      refine List.pairwise_cons.2 ⟨fun e he => ?_, h⟩
      rcases List.mem_cons.1 he with rfl | he
      · exact below
      · exact String.lt_trans below (first e he)
    next =>
      split
      next above =>
        refine List.pairwise_cons.2 ⟨fun e he => ?_, ih tail⟩
        rcases mem_putText he with same | ⟨v, he⟩
        · simpa [same] using above
        · exact first (e.1, v) he
      next => exact List.pairwise_cons.2 ⟨first, tail⟩

structure TextMap where
  entries : List (String × String)
  sorted : entries.Pairwise fun a b => a.1 < b.1
  deriving DecidableEq, Repr

namespace TextMap

def empty : TextMap := ⟨[], .nil⟩

instance : Inhabited TextMap := ⟨empty⟩

def insert (map : TextMap) (key value : String) : TextMap :=
  ⟨putText key value map.entries, pairwise_putText key value map.sorted⟩

def extend (map : TextMap) (entries : List (String × String)) : TextMap :=
  entries.foldl (fun m (key, value) => m.insert key value) map

def ofList (entries : List (String × String)) : TextMap := empty.extend entries

def get? (map : TextMap) (key : String) : Option String := map.entries.lookup key

end TextMap

end ObjectBoundary
