import ObjectBoundary.Json.Token

/-!
# Reading JSON

A machine over the lexemes of a text. The open arrays and objects stand on a stack, innermost
first, so a text may be nested to any depth.
-/

namespace ObjectBoundary.Json

/-- An open container with what has been read of it, last first. -/
inductive Frame where
  | array (items : List Json)
  /-- An object between two fields. -/
  | fields (fields : List (Option String × Json))
  /-- An object that waits for the value of a field. -/
  | field (fields : List (Option String × Json)) (name : Option String)

/-- What may come next. -/
inductive Phase where
  | value
  /-- Just behind an opening bracket. -/
  | firstItem
  /-- Just behind an opening brace. -/
  | firstField
  | fieldName
  | colon
  /-- Behind a value inside a container. -/
  | afterValue
  /-- Behind the outermost value. -/
  | finished (value : Json)

structure Reader where
  stack : List Frame
  phase : Phase

namespace Reader

/-- Hands a completed value to the innermost open container. -/
def complete? (value : Json) : List Frame → Option Reader
  | [] => some ⟨[], .finished value⟩
  | .array items :: stack => some ⟨.array (value :: items) :: stack, .afterValue⟩
  | .field fields name :: stack => some ⟨.fields ((name, value) :: fields) :: stack, .afterValue⟩
  | .fields _ :: _ => none

def beginValue? (stack : List Frame) : Token → Option Reader
  | .word value => complete? value stack
  | .text s => complete? (.text s) stack
  | .openArray => some ⟨.array [] :: stack, .firstItem⟩
  | .openObject => some ⟨.fields [] :: stack, .firstField⟩
  | _ => none

def closeArray? : List Frame → Option Reader
  | .array items :: stack => complete? (.array items.reverse) stack
  | _ => none

def closeObject? : List Frame → Option Reader
  | .fields fields :: stack => complete? (.object fields.reverse) stack
  | _ => none

def name? (name : Option String) : List Frame → Option Reader
  | .fields fields :: stack => some ⟨.field fields name :: stack, .colon⟩
  | _ => none

/-- What a comma behind a value asks for. -/
def comma? : List Frame → Option Reader
  | .array items :: stack => some ⟨.array items :: stack, .value⟩
  | .fields fields :: stack => some ⟨.fields fields :: stack, .fieldName⟩
  | _ => none

def step? (reader : Reader) (token : Token) : Option Reader :=
  match reader.phase, token with
  | .value, token => beginValue? reader.stack token
  | .firstItem, .closeArray => closeArray? reader.stack
  | .firstItem, token => beginValue? reader.stack token
  | .firstField, .closeObject => closeObject? reader.stack
  | .firstField, .text name => name? name reader.stack
  | .fieldName, .text name => name? name reader.stack
  | .colon, .colon => some ⟨reader.stack, .value⟩
  | .afterValue, .comma => comma? reader.stack
  | .afterValue, .closeArray => closeArray? reader.stack
  | .afterValue, .closeObject => closeObject? reader.stack
  | _, _ => none

def run? (reader : Reader) : List Token → Option Reader
  | [] => some reader
  | token :: tokens =>
    match reader.step? token with
    | some next => next.run? tokens
    | none => none

end Reader

def parse? (s : String) : Option Json :=
  match Token.tokens? s.toList with
  | none => none
  | some tokens =>
    match Reader.run? ⟨[], .value⟩ tokens with
    | some ⟨_, .finished value⟩ => some value
    | _ => none

end ObjectBoundary.Json
