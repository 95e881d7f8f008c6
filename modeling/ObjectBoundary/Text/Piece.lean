/-!
# Pieces of a text

The test whether one text occurs inside another, and the splitting of a text at a character.
-/

namespace ObjectBoundary.Text

def hasPiece (needle : List Char) : List Char → Bool
  | [] => needle.isEmpty
  | c :: cs => needle.isPrefixOf (c :: cs) || hasPiece needle cs

def contains (s needle : String) : Bool :=
  hasPiece needle.toList s.toList

/-- The parts of a text between the occurrences of a separator; there is always at least one. -/
def splitAt (separator : Char) : List Char → List (List Char)
  | [] => [[]]
  | c :: cs =>
    if c = separator then [] :: splitAt separator cs
    else
      match splitAt separator cs with
      | [] => [[c]]
      | part :: parts => (c :: part) :: parts

/-- The text that follows `start`, when the text begins with it. -/
def dropStart? (start : List Char) (cs : List Char) : Option (List Char) :=
  if start.isPrefixOf cs then some (cs.drop start.length) else none

end ObjectBoundary.Text
