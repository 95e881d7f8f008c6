import ObjectBoundary.Json.Reader

/-!
# Records in JSON

A record is written as an object, or as an array of its fields in their order. Unknown fields are
passed over; a known field may stand only once. A field with a default may be absent, in the array
form only together with all that follow it. A field that is present is never replaced by its
default.
-/

namespace ObjectBoundary.Json

inductive DecodeError where
  | malformed
  | expected (what : String)
  | missing (field : String)
  | repeated (field : String)
  | tooLong
  deriving Repr, DecidableEq

namespace DecodeError

def message : DecodeError → String
  | .malformed => "malformed document"
  | .expected what => s!"expected {what}"
  | .missing field => s!"missing field {field}"
  | .repeated field => s!"duplicate field {field}"
  | .tooLong => "too many elements"

end DecodeError

abbrev Decoded (α : Type) := Except DecodeError α

/-- The values found for one field of an object. -/
def valuesOf (name : String) (fields : List (Option String × Json)) : List Json :=
  fields.filterMap fun (key, value) => if key = some name then some value else none

/-- The value of a field that stands at most once. -/
def single (name : String) (fields : List (Option String × Json)) : Decoded (Option Json) :=
  match valuesOf name fields with
  | [] => .ok none
  | [value] => .ok (some value)
  | _ => .error (.repeated name)

/-- Gives each field name the value at its place. -/
def positional : List String → List Json → Decoded (List (Option Json))
  | [], [] => .ok []
  | [], _ :: _ => .error .tooLong
  | _ :: names, [] => (positional names []).map (none :: ·)
  | _ :: names, item :: items => (positional names items).map (some item :: ·)

/-- The values of a record's fields, in the order of the given names. -/
def record (what : String) (names : List String) : Json → Decoded (List (Option Json))
  | .object fields =>
    if fields.all (·.1.isSome) then names.mapM (single · fields) else .error .malformed
  | .array items => positional names items
  | _ => .error (.expected what)

def required {α : Type} (name : String) (decode : Json → Decoded α) : Option Json → Decoded α
  | some value => decode value
  | none => .error (.missing name)

def optional {α : Type} (default : α) (decode : Json → Decoded α) : Option Json → Decoded α
  | some value => decode value
  | none => .ok default

def asText : Json → Decoded String
  | .text (some s) => .ok s
  | .text none => .error .malformed
  | _ => .error (.expected "a string")

def asBool : Json → Decoded Bool
  | .bool b => .ok b
  | _ => .error (.expected "a boolean")

/-- An integer literal between two bounds. -/
def asInteger (low high : Int) : Json → Decoded Int
  | .integer n => if low ≤ n ∧ n ≤ high then .ok n else .error (.expected "an integer in range")
  | _ => .error (.expected "an integer")

def asList {α : Type} (decode : Json → Decoded α) : Json → Decoded (List α)
  | .array items => items.mapM decode
  | _ => .error (.expected "an array")

/-- The entries of an object used as a map, in the order in which they are written. -/
def asEntries {α : Type} (decode : Json → Decoded α) : Json → Decoded (List (String × α))
  | .object fields =>
    fields.mapM fun (key, value) =>
      match key with
      | some name => (decode value).map fun v => (name, v)
      | none => .error .malformed
  | _ => .error (.expected "an object")

/-- One of a list of names: its own string, or an object whose only field has that name and the
value null. -/
def asVariant {α : Type} (variants : List (String × α)) (json : Json) : Decoded α :=
  let found (name : String) : Decoded α :=
    match variants.lookup name with
    | some value => .ok value
    | none => .error (.expected "a known variant")
  match json with
  | .text (some name) => found name
  | .object [(some name, .null)] => found name
  | _ => .error (.expected "a variant")

/-- Reads a document and takes it apart. -/
def decode {α : Type} (take : Json → Decoded α) (s : String) : Decoded α :=
  match parse? s with
  | some json => take json
  | none => .error .malformed

end ObjectBoundary.Json
