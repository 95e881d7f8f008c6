/-!
# Blank characters

The characters with the Unicode property White_Space, and the removal of blanks at both ends of a
text.
-/

namespace ObjectBoundary.Text

/-- Whether a character has the Unicode property White_Space. -/
def isBlank (c : Char) : Bool :=
  let n := c.toNat
  (0x09 ≤ n && n ≤ 0x0d) || n == 0x20 || n == 0x85 || n == 0xa0 || n == 0x1680 ||
    (0x2000 ≤ n && n ≤ 0x200a) || n == 0x2028 || n == 0x2029 || n == 0x202f || n == 0x205f ||
    n == 0x3000

/-- The characters between the first and the last that is not blank. -/
def trimChars (cs : List Char) : List Char :=
  ((cs.dropWhile isBlank).reverse.dropWhile isBlank).reverse

def trim (s : String) : String :=
  String.ofList (trimChars s.toList)

theorem length_trimChars_le (cs : List Char) : (trimChars cs).length ≤ cs.length := by
  have step (xs : List Char) : (xs.dropWhile isBlank).length ≤ xs.length :=
    (List.dropWhile_sublist isBlank).length_le
  have outer := step (cs.dropWhile isBlank).reverse
  have inner := step cs
  simp only [trimChars, List.length_reverse] at *
  omega

end ObjectBoundary.Text
