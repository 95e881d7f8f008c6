/-!
# Numerals

Decimal and hexadecimal spellings of natural numbers.
-/

namespace ObjectBoundary.Text

def decimalValue? (c : Char) : Option Nat :=
  if c.isDigit then some (c.toNat - '0'.toNat) else none

/-- The value of a hexadecimal digit of either case. -/
def hexValue? (c : Char) : Option Nat :=
  if c.isDigit then some (c.toNat - '0'.toNat)
  else if 'a' ≤ c && c ≤ 'f' then some (c.toNat - 'a'.toNat + 10)
  else if 'A' ≤ c && c ≤ 'F' then some (c.toNat - 'A'.toNat + 10)
  else none

/-- The number that a list of digits spells in a base, most significant first, continuing from
`start`. -/
def valueFrom (base start : Nat) (digits : List Nat) : Nat :=
  digits.foldl (fun n d => n * base + d) start

def decimal? (cs : List Char) : Option Nat :=
  if cs.isEmpty then none else (cs.mapM decimalValue?).map (valueFrom 10 0)

def hexadecimal? (cs : List Char) : Option Nat :=
  if cs.isEmpty then none else (cs.mapM hexValue?).map (valueFrom 16 0)

/-- A decimal numeral with at most one leading plus sign, as counters are read. -/
def unsigned? : List Char → Option Nat
  | '+' :: cs => decimal? cs
  | cs => decimal? cs

def dropSign : List Char → List Char
  | '+' :: cs | '-' :: cs => cs
  | cs => cs

/-- Whether a text is empty or the exponent of a number: a letter, a sign or none, and digits. -/
def isExponent : List Char → Bool
  | [] => true
  | c :: cs => (c == 'e' || c == 'E') && (decimal? (dropSign cs)).isSome

/-- Whether a text spells a number that need not be whole: after a sign or none, an infinity, no
number at all, or digits with at most one point before, between or behind them and an exponent. -/
def isNumber (cs : List Char) : Bool :=
  let body := dropSign cs
  let whole := body.takeWhile Char.isDigit
  let behind := body.dropWhile Char.isDigit
  let fraction := if behind.head? = some '.' then behind.drop 1 else []
  let places := fraction.takeWhile Char.isDigit
  let rest := if behind.head? = some '.' then fraction.dropWhile Char.isDigit else behind
  ["inf", "infinity", "nan"].contains (String.ofList (body.map Char.toLower)) ||
    (!(whole ++ places).isEmpty && isExponent rest)

def padLeft (width : Nat) (cs : List Char) : List Char :=
  List.replicate (width - cs.length) '0' ++ cs

/-- The decimal spelling, filled with zeros to a least width. -/
def paddedDecimal (width n : Nat) : String :=
  String.ofList (padLeft width (Nat.toDigits 10 n))

def decimal (n : Nat) : String :=
  String.ofList (Nat.toDigits 10 n)

/-- The decimal spelling of an integer; a negative one begins with a minus sign. -/
def signedDecimal : Int → String
  | .ofNat n => decimal n
  | .negSucc n => "-" ++ decimal (n + 1)

/-- The lower-case hexadecimal spelling after `0x`, filled with zeros to a least width. -/
def paddedHex (width n : Nat) : String :=
  "0x" ++ String.ofList (padLeft width (Nat.toDigits 16 n))

end ObjectBoundary.Text
