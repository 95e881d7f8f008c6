import ObjectBoundary.Json.Basic
import ObjectBoundary.Text.Numeral

/-!
# JSON text

Two layouts of a value: the compact one has no blanks; the indented one puts every item and every
field on a line of its own, two spaces deeper than its container. Only the quote, the backslash and
the control characters are escaped.
-/

namespace ObjectBoundary.Json

/-- A control character without a short escape, as `\u` and four lower-case digits. -/
def escapeControl (c : Char) : List Char :=
  '\\' :: 'u' :: Text.padLeft 4 (Nat.toDigits 16 c.toNat)

def escapeChar (c : Char) : List Char :=
  if c = '"' then ['\\', '"']
  else if c = '\\' then ['\\', '\\']
  else if c = '\x08' then ['\\', 'b']
  else if c = '\x0c' then ['\\', 'f']
  else if c = '\n' then ['\\', 'n']
  else if c = '\r' then ['\\', 'r']
  else if c = '\t' then ['\\', 't']
  else if c.toNat < 0x20 then escapeControl c
  else [c]

/-- A string literal. What denotes no text is written as a lone surrogate. -/
def quote : Option String → List Char
  | some s => '"' :: s.toList.flatMap escapeChar ++ ['"']
  | none => "\"\\ud800\"".toList

def integerChars (n : Int) : List Char := (Text.signedDecimal n).toList

mutual

/-- The layout without blanks. -/
def compactChars : Json → List Char
  | .null => "null".toList
  | .bool true => "true".toList
  | .bool false => "false".toList
  | .integer n => integerChars n
  | .decimal lexeme => lexeme.toList
  | .text s => quote s
  | .array items => '[' :: compactItems items ++ [']']
  | .object fields => '\x7b' :: compactFields fields ++ ['\x7d']

def compactItems : List Json → List Char
  | [] => []
  | [item] => compactChars item
  | item :: items => compactChars item ++ ',' :: compactItems items

def compactFields : List (Option String × Json) → List Char
  | [] => []
  | [(name, value)] => quote name ++ ':' :: compactChars value
  | (name, value) :: fields =>
    quote name ++ ':' :: compactChars value ++ ',' :: compactFields fields

end

/-- A line break followed by the indentation of a depth. -/
def newline (depth : Nat) : List Char :=
  '\n' :: List.replicate (2 * depth) ' '

mutual

/-- The indented layout of a value that stands at a depth. -/
def indentedChars (depth : Nat) : Json → List Char
  | .null => "null".toList
  | .bool true => "true".toList
  | .bool false => "false".toList
  | .integer n => integerChars n
  | .decimal lexeme => lexeme.toList
  | .text s => quote s
  | .array [] => ['[', ']']
  | .array (item :: items) =>
    '[' :: newline (depth + 1) ++ indentedChars (depth + 1) item ++
      indentedItems (depth + 1) items ++ newline depth ++ [']']
  | .object [] => ['\x7b', '\x7d']
  | .object ((name, value) :: fields) =>
    '\x7b' :: newline (depth + 1) ++ quote name ++ ':' :: ' ' :: indentedChars (depth + 1) value ++
      indentedFields (depth + 1) fields ++ newline depth ++ ['\x7d']

/-- The items after the first, each behind a comma and on a new line. -/
def indentedItems (depth : Nat) : List Json → List Char
  | [] => []
  | item :: items =>
    ',' :: newline depth ++ indentedChars depth item ++ indentedItems depth items

/-- The fields after the first, each behind a comma and on a new line. -/
def indentedFields (depth : Nat) : List (Option String × Json) → List Char
  | [] => []
  | (name, value) :: fields =>
    ',' :: newline depth ++ quote name ++ ':' :: ' ' :: indentedChars depth value ++
      indentedFields depth fields

end

def compact (json : Json) : String := String.ofList (compactChars json)

def indented (json : Json) : String := String.ofList (indentedChars 0 json)

end ObjectBoundary.Json
