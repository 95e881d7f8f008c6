import ObjectBoundary.Json.Basic
import ObjectBoundary.Text.Numeral

/-!
# Lexemes of a JSON text

A text is read one character at a time by a machine with five modes. A word is a run of characters
between blanks, brackets, commas, colons and quotes; it must be a literal or a number.
-/

namespace ObjectBoundary.Json

inductive Token where
  | openObject
  | closeObject
  | openArray
  | closeArray
  | colon
  | comma
  | text (value : Option String)
  /-- A literal or a number. -/
  | word (value : Json)

namespace Token

def isSpace (c : Char) : Bool :=
  c == ' ' || c == '\n' || c == '\r' || c == '\t'

/-- The mark that a single character stands for. -/
def mark? (c : Char) : Option Token :=
  if c = '\x7b' then some .openObject
  else if c = '\x7d' then some .closeObject
  else if c = '[' then some .openArray
  else if c = ']' then some .closeArray
  else if c = ':' then some .colon
  else if c = ',' then some .comma
  else none

/-- A sign and at least one digit, as after the letter of an exponent. -/
def isExponent (cs : List Char) : Bool :=
  let digits :=
    match cs with
    | '+' :: rest => rest
    | '-' :: rest => rest
    | rest => rest
  !digits.isEmpty && digits.all Char.isDigit

/-- What may follow the integer part of a number: a fraction, an exponent, both or nothing. -/
def isNumberTail : List Char → Bool
  | [] => true
  | '.' :: rest =>
    let digits := rest.takeWhile Char.isDigit
    !digits.isEmpty &&
      match rest.dropWhile Char.isDigit with
      | [] => true
      | c :: power => (c == 'e' || c == 'E') && isExponent power
  | c :: power => (c == 'e' || c == 'E') && isExponent power

/-- Reads a number whose sign has been taken off. -/
def unsignedNumber? (negative : Bool) (cs : List Char) : Option Json :=
  let digits := cs.takeWhile Char.isDigit
  let tail := cs.dropWhile Char.isDigit
  let lexeme := String.ofList (if negative then '-' :: cs else cs)
  match Text.decimal? digits with
  | none => none
  | some n =>
    if digits.length > 1 && digits.head? == some '0' then none
    else if tail.isEmpty then
      if negative then
        if n = 0 then some (.decimal lexeme) else some (.integer (-(n : Int)))
      else some (.integer n)
    else if isNumberTail tail then some (.decimal lexeme)
    else none

def wordValue? (cs : List Char) : Option Json :=
  if cs = "null".toList then some .null
  else if cs = "true".toList then some (.bool true)
  else if cs = "false".toList then some (.bool false)
  else
    match cs with
    | '-' :: rest => unsignedNumber? true rest
    | _ => unsignedNumber? false cs

/-- The part of a string literal read so far: its characters, last first, whether every surrogate
has met its partner, and a leading surrogate that still waits for one. -/
structure Literal where
  reversed : List Char := []
  paired : Bool := true
  leading : Option Nat := none

namespace Literal

/-- Adds a character that was written as itself or by a short escape. -/
def push (p : Literal) (c : Char) : Literal :=
  { reversed := c :: p.reversed, paired := p.paired && p.leading.isNone, leading := none }

/-- Adds a code unit written by four hexadecimal digits. -/
def pushUnit (p : Literal) (unit : Nat) : Literal :=
  let isTrailing := 0xdc00 ≤ unit && unit ≤ 0xdfff
  let isLeading := 0xd800 ≤ unit && unit ≤ 0xdbff
  match p.leading with
  | some lead =>
    if isTrailing then
      { p with
        reversed := Char.ofNat (0x10000 + (lead - 0xd800) * 0x400 + (unit - 0xdc00)) :: p.reversed
        leading := none }
    else { p with paired := false, leading := none }
  | none =>
    if isLeading then { p with leading := some unit }
    else if isTrailing then { p with paired := false }
    else { p with reversed := Char.ofNat unit :: p.reversed }

def finish (p : Literal) : Option String :=
  if p.paired && p.leading.isNone then some (String.ofList p.reversed.reverse) else none

end Literal

inductive Mode where
  | between
  | word (reversed : List Char)
  | inside (literal : Literal)
  | escape (literal : Literal)
  | unit (literal : Literal) (digits value : Nat)

/-- The character behind a backslash, other than `u`. -/
def shortEscape? (c : Char) : Option Char :=
  if c = '"' then some '"'
  else if c = '\\' then some '\\'
  else if c = '/' then some '/'
  else if c = 'b' then some '\x08'
  else if c = 'f' then some '\x0c'
  else if c = 'n' then some '\n'
  else if c = 'r' then some '\r'
  else if c = 't' then some '\t'
  else none

/-- The lexemes that a character completes, last first, and the mode after it, when it does not
belong to a word or a string. -/
def open? (c : Char) : List Token × Mode :=
  if isSpace c then ([], .between)
  else if c = '"' then ([], .inside {})
  else
    match mark? c with
    | some token => ([token], .between)
    | none => ([], .word [c])

def endsWord (c : Char) : Bool :=
  isSpace c || c == '"' || (mark? c).isSome

/-- One step of the machine: the lexemes that the character completes, last first, and the next
mode. Control characters may not stand in a string. -/
def step? : Mode → Char → Option (List Token × Mode)
  | .between, c => some (open? c)
  | .word reversed, c =>
    if endsWord c then
      match wordValue? reversed.reverse with
      | some value => some ((open? c).1 ++ [.word value], (open? c).2)
      | none => none
    else some ([], .word (c :: reversed))
  | .inside literal, c =>
    if c = '"' then some ([.text literal.finish], .between)
    else if c = '\\' then some ([], .escape literal)
    else if c.toNat < 0x20 then none
    else some ([], .inside (literal.push c))
  | .escape literal, c =>
    if c = 'u' then some ([], .unit literal 0 0)
    else (shortEscape? c).map fun meant => ([], .inside (literal.push meant))
  | .unit literal digits value, c =>
    match Text.hexValue? c with
    | none => none
    | some d =>
      if digits = 3 then some ([], .inside (literal.pushUnit (value * 16 + d)))
      else some ([], .unit literal (digits + 1) (value * 16 + d))

/-- The lexemes still open at the end of the text, last first. -/
def finish? : Mode → Option (List Token)
  | .between => some []
  | .word reversed => (wordValue? reversed.reverse).map fun value => [.word value]
  | _ => none

/-- Runs the machine; `found` holds the lexemes completed so far, last first. -/
def scan (found : List Token) (mode : Mode) : List Char → Option (List Token)
  | [] => (finish? mode).map fun last => (last ++ found).reverse
  | c :: cs =>
    match step? mode c with
    | some (tokens, next) => scan (tokens ++ found) next cs
    | none => none

def tokens? (cs : List Char) : Option (List Token) := scan [] .between cs

end Token

end ObjectBoundary.Json
