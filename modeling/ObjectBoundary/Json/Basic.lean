/-!
# JSON values

A value keeps the order and the repetitions of an object's fields, because readers of records treat
a repeated field as an error. An integer literal is told apart from every other number. A string
literal whose escapes leave a surrogate without its partner is well formed but denotes no text.
-/

namespace ObjectBoundary

inductive Json where
  | null
  | bool (value : Bool)
  /-- A number written without fraction and exponent, other than `-0`. -/
  | integer (value : Int)
  /-- Any other number, as it was written. -/
  | decimal (lexeme : String)
  /-- A string; `none` when its escapes leave a surrogate unpaired. -/
  | text (value : Option String)
  | array (items : List Json)
  | object (fields : List (Option String × Json))
  deriving Inhabited

namespace Json

def ofText (s : String) : Json := .text (some s)

/-- An object with the given fields in order. -/
def ofFields (fields : List (String × Json)) : Json :=
  .object (fields.map fun (name, value) => (some name, value))

end Json

end ObjectBoundary
