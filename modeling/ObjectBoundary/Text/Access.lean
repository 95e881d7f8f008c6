import ObjectBoundary.Handle.Access
import ObjectBoundary.Text.Boundary

/-!
# Strings behind handles

A string is copied whenever it crosses the boundary; every copy has a handle of its own.
-/

namespace ObjectBoundary.Op

def issueText (s : String) : Op Handle := do
  let content ← check (Text.checkNul s)
  issueNew .string (.text content)

/-- The content of a string object. -/
def textOf (ref : Ref) : Op String := do
  match ← payload ref with
  | .text value => return value
  | _ => fail (.typeMismatch "string" "non-string object")

def readText (handle : Handle) : Op String := do
  textOf (← resolve handle (some .string))

end ObjectBoundary.Op
