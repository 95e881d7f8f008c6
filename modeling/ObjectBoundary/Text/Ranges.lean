/-!
# Code point ranges

A character class given by the inclusive ranges of its code points.
-/

namespace ObjectBoundary.Text

/-- Whether a code point lies in one of the inclusive ranges of a table. -/
def inRanges (table : List (Nat × Nat)) (code : Nat) : Bool :=
  table.any fun range => range.1 ≤ code && code ≤ range.2

end ObjectBoundary.Text
