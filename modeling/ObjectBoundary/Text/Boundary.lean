import ObjectBoundary.Fault

/-!
# Texts at the boundary

A text that is lent to a caller ends at its first NUL, so a text that crosses the boundary has none.
A text that comes in is a sequence of bytes up to the first NUL, which may not be well formed.
-/

namespace ObjectBoundary

/-- A text argument as a caller passes it. -/
inductive TextArgument where
  | null
  | malformed
  | text (value : String)
  deriving DecidableEq, Repr, Inhabited

namespace TextArgument

/-- The text of an argument; `what` names the argument in faults. -/
def read (what : String) : TextArgument → Except Fault String
  | .null => .error (.invalidArgument (.nullText what))
  | .malformed => .error (.invalidArgument (.notText what))
  | .text value => .ok value

/-- The argument that a sequence of bytes stands for. -/
def ofBytes (bytes : List UInt8) : TextArgument :=
  match String.fromUTF8? (ByteArray.mk (bytes.takeWhile (· ≠ 0)).toArray) with
  | some value => .text value
  | none => .malformed

end TextArgument

namespace Text

/-- The position in bytes of the first NUL. -/
def nulPosition? (s : String) : Option Nat :=
  if s.toList.contains '\x00' then
    some (String.ofList (s.toList.takeWhile (· ≠ '\x00'))).utf8ByteSize
  else none

/-- Admits the texts without a NUL. -/
def checkNul (s : String) : Except Fault String :=
  match nulPosition? s with
  | some position => .error (.invalidArgument (.interiorNul position))
  | none => .ok s

end Text

end ObjectBoundary
