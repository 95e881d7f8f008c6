import ObjectBoundary.Calendar.Parse
import ObjectBoundary.Toml.Basic

/-!
# TOML strings, numbers, dates and times

The texts of values that hold no other values.
-/

namespace ObjectBoundary.Toml

/-- The characters that stand for themselves in every string, apart from quotes and backslashes. -/
def isPlain (c : Char) : Bool :=
  c == '\t' || (' ' ≤ c && c ≤ '~') || 0x80 ≤ c.toNat

def scalar? (digits : List Char) : Option Char := do
  let n ← Text.hexadecimal? digits
  if n < 0xd800 ∨ (0xdfff < n ∧ n ≤ 0x10ffff) then some (Char.ofNat n) else none

/-- The character that a letter behind a backslash stands for. -/
def escaped? : Char → Option Char
  | 'b' => some '\x08'
  | 't' => some '\t'
  | 'n' => some '\n'
  | 'f' => some '\x0c'
  | 'r' => some '\r'
  | '"' => some '"'
  | '\\' => some '\\'
  | _ => none

def before (c : Option Char) (rest : Option (List Char × List Char)) :
    Option (List Char × List Char) := do
  let c ← c
  let (behind, rest) ← rest
  return (c :: behind, rest)

/-- The text of a string behind its opening quote. -/
def basic : List Char → Option (List Char × List Char)
  | '"' :: rest => some ([], rest)
  | '\\' :: 'u' :: a :: b :: c :: d :: rest => before (scalar? [a, b, c, d]) (basic rest)
  | '\\' :: 'U' :: a :: b :: c :: d :: e :: f :: g :: h :: rest =>
    before (scalar? [a, b, c, d, e, f, g, h]) (basic rest)
  | '\\' :: c :: rest => before (escaped? c) (basic rest)
  | c :: rest => if isPlain c ∧ c ≠ '\\' then before (some c) (basic rest) else none
  | [] => none

/-- The text of a literal string behind its opening quote. -/
def literal : List Char → Option (List Char × List Char)
  | '\x27' :: rest => some ([], rest)
  | c :: rest => if isPlain c then before (some c) (literal rest) else none
  | [] => none

/-- Where the reading of a string of several lines is. -/
inductive LineState where
  | text
  /-- Behind a backslash that ends a line, before the end of that line. -/
  | lineEnd
  /-- Behind that line, among the blanks that are left out. -/
  | indent
  deriving DecidableEq

/-- The text of a string of several lines behind its opening quotes. Up to two quotes may stand
before the closing ones. -/
def multiline (state : LineState) : List Char → Option (List Char × List Char)
  | '\r' :: '\n' :: rest =>
    match state with
    | .text => before (some '\n') (multiline .text rest)
    | .lineEnd | .indent => multiline .indent rest
  | '\n' :: rest =>
    match state with
    | .text => before (some '\n') (multiline .text rest)
    | .lineEnd | .indent => multiline .indent rest
  | c :: rest =>
    if state = .lineEnd then if c = ' ' ∨ c = '\t' then multiline .lineEnd rest else none
    else if state = .indent ∧ (c = ' ' ∨ c = '\t') then multiline .indent rest
    else if c = '"' then
      match rest with
      | '"' :: '"' :: '"' :: '"' :: rest => some (['"', '"'], rest)
      | '"' :: '"' :: '"' :: rest => some (['"'], rest)
      | '"' :: '"' :: rest => some ([], rest)
      | rest => before (some '"') (multiline .text rest)
    else if c = '\\' then
      match rest with
      | 'u' :: a :: b :: c :: d :: rest => before (scalar? [a, b, c, d]) (multiline .text rest)
      | 'U' :: a :: b :: c :: d :: e :: f :: g :: h :: rest =>
        before (scalar? [a, b, c, d, e, f, g, h]) (multiline .text rest)
      | c :: rest =>
        if c = ' ' ∨ c = '\t' ∨ c = '\r' ∨ c = '\n' then multiline .lineEnd (c :: rest)
        else before (escaped? c) (multiline .text rest)
      | [] => none
    else if isPlain c then before (some c) (multiline .text rest)
    else none
  | [] => none

def multilineLiteral : List Char → Option (List Char × List Char)
  | '\x27' :: '\x27' :: '\x27' :: '\x27' :: '\x27' :: rest => some (['\x27', '\x27'], rest)
  | '\x27' :: '\x27' :: '\x27' :: '\x27' :: rest => some (['\x27'], rest)
  | '\x27' :: '\x27' :: '\x27' :: rest => some ([], rest)
  | '\r' :: '\n' :: rest => before (some '\n') (multilineLiteral rest)
  | '\n' :: rest => before (some '\n') (multilineLiteral rest)
  | c :: rest => if isPlain c then before (some c) (multilineLiteral rest) else none
  | [] => none

/-- A line break right behind opening quotes is left out. -/
def afterBreak : List Char → List Char
  | '\r' :: '\n' :: rest => rest
  | '\n' :: rest => rest
  | cs => cs

def string? (cs : List Char) : Option (String × List Char) :=
  let read : Option (List Char × List Char) :=
    match cs with
    | '"' :: '"' :: '"' :: rest => multiline .text (afterBreak rest)
    | '"' :: rest => basic rest
    | '\x27' :: '\x27' :: '\x27' :: rest => multilineLiteral (afterBreak rest)
    | '\x27' :: rest => literal rest
    | _ => none
  read.map fun (content, rest) => (String.ofList content, rest)

/-- The values of digits in which single underscores may stand between two digits. -/
def digits? (value? : Char → Option Nat) : List Char → Option (List Nat)
  | [] => none
  | [c] => (value? c).map fun d => [d]
  | c :: '_' :: rest => do return (← value? c) :: (← digits? value? rest)
  | c :: rest => do return (← value? c) :: (← digits? value? rest)

def smallDigit? (base : Nat) (c : Char) : Option Nat :=
  (Text.decimalValue? c).bind fun d => if d < base then some d else none

/-- A decimal number without a sign and without needless zeros at its front. -/
def unsigned? (cs : List Char) : Option Nat :=
  if cs.length > 1 ∧ cs.head? = some '0' then none
  else (digits? Text.decimalValue? cs).map (Text.valueFrom 10 0)

/-- Divides a sign from what follows it; the sign is true for a minus. -/
def sign : List Char → Bool × List Char
  | '-' :: rest => (true, rest)
  | '+' :: rest => (false, rest)
  | cs => (false, cs)

/-- An integer, which has to fit into 64 bits. -/
def integer? (cs : List Char) : Option Int :=
  let value : Option Int :=
    match cs with
    | '0' :: 'x' :: rest =>
      (digits? Text.hexValue? rest).map fun ds => (Text.valueFrom 16 0 ds : Int)
    | '0' :: 'o' :: rest =>
      (digits? (smallDigit? 8) rest).map fun ds => (Text.valueFrom 8 0 ds : Int)
    | '0' :: 'b' :: rest =>
      (digits? (smallDigit? 2) rest).map fun ds => (Text.valueFrom 2 0 ds : Int)
    | cs =>
      let (negative, rest) := sign cs
      (unsigned? rest).map fun n => if negative then -(n : Int) else n
  value.bind fun n =>
    if Int64.minValue.toInt ≤ n ∧ n ≤ Int64.maxValue.toInt then some n else none

/-- Whether a decimal number is too great for double precision: digits, times a power of ten. -/
def isTooGreat (digits : List Nat) (exponent : Int) : Bool :=
  let significant := digits.dropWhile (· == 0)
  let magnitude : Int := significant.length + exponent
  if significant.isEmpty ∨ magnitude < 300 then false
  else if magnitude > 320 then true
  else
    let n := Text.valueFrom 10 0 significant
    let limit : Nat := 1 <<< 1024 - 1 <<< 970
    if 0 ≤ exponent then decide (n * Nat.pow 10 exponent.toNat ≥ limit)
    else decide (n ≥ limit * Nat.pow 10 (-exponent).toNat)

/-- The exponent of a number: digits behind `e` and an optional sign. -/
def exponent? : List Char → Option Int
  | [] => some 0
  | c :: rest =>
    if c = 'e' ∨ c = 'E' then
      let (negative, rest) := sign rest
      (digits? Text.decimalValue? rest).map fun ds =>
        let n : Int := Text.valueFrom 10 0 ds
        if negative then -n else n
    else none

/-- Whether a text is a number with a fraction or an exponent, an infinity or no number at all. A
positive number must not be too great. -/
def isFloat (cs : List Char) : Bool :=
  let (negative, cs) := sign cs
  if cs = "inf".toList ∨ cs = "nan".toList then true
  else
    let isExponent (c : Char) : Bool := c == 'e' || c == 'E'
    let mantissa := cs.takeWhile (! isExponent ·)
    let tail := cs.dropWhile (! isExponent ·)
    let whole := mantissa.takeWhile (· ≠ '.')
    let fraction : Option (List Nat) :=
      match mantissa.dropWhile (· ≠ '.') with
      | [] => if tail.isEmpty then none else some []
      | _ :: places => digits? Text.decimalValue? places
    match unsigned? whole, digits? Text.decimalValue? whole, fraction, exponent? tail with
    | some _, some whole, some fraction, some exponent =>
      negative || !isTooGreat (whole ++ fraction) (exponent - fraction.length)
    | _, _, _, _ => false

def afterTime? (cs : List Char) : Option (List Char) := do
  let (hour, cs) ← Date.number? 2 2 cs
  let cs ← Date.after? ':' cs
  let (minute, cs) ← Date.number? 2 2 cs
  let cs ← Date.after? ':' cs
  let (second, cs) ← Date.number? 2 2 cs
  if hour ≤ 23 ∧ minute ≤ 59 ∧ second ≤ 60 then Date.fraction? cs else none

/-- Whether a text is a time of day that may be followed by a distance from UTC. -/
def isTimeWithOffset (cs : List Char) : Bool :=
  match afterTime? cs with
  | some [] => true
  | some rest => Date.isOffset rest
  | none => false

def afterDate? (cs : List Char) : Option (List Char) := do
  let (year, cs) ← Date.number? 4 4 cs
  let cs ← Date.after? '-' cs
  let (month, cs) ← Date.number? 2 2 cs
  let cs ← Date.after? '-' cs
  let (day, cs) ← Date.number? 2 2 cs
  if 1 ≤ day ∧ day ≤ Date.daysIn year month then some cs else none

/-- Whether a text is a date, a time, or both with a `T` between them. -/
def isMoment (cs : List Char) : Bool :=
  afterTime? cs == some [] ||
    match afterDate? cs with
    | some [] => true
    | some (c :: rest) => (c == 'T' || c == 't') && isTimeWithOffset rest
    | none => false

/-- The characters of a value that is not quoted. -/
def isWordChar (c : Char) : Bool :=
  c.isAlphanum || c == '_' || c == '+' || c == '-' || c == '.' || c == ':'

def word? (cs : List Char) : Option Toml :=
  if cs = "true".toList then some (.bool true)
  else if cs = "false".toList then some (.bool false)
  else if isMoment cs then some .moment
  else if isFloat cs then some .float
  else (integer? cs).map .integer

/-- A value that is not quoted. A date and a time may be divided by a blank. -/
def bare? (cs : List Char) : Option (Toml × List Char) := do
  let word := cs.takeWhile isWordChar
  let rest := cs.dropWhile isWordChar
  let value ← word? word
  match afterDate? word, rest with
  | some [], ' ' :: c :: rest =>
    if c.isDigit then
      let time := (c :: rest).takeWhile isWordChar
      if isTimeWithOffset time then some (.moment, (c :: rest).dropWhile isWordChar) else none
    else some (value, ' ' :: c :: rest)
  | _, rest => some (value, rest)

end ObjectBoundary.Toml
