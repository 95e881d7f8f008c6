import ObjectBoundary.Calendar.Date
import ObjectBoundary.Text.Blank

/-!
# Reading dates

A date is read from year, month and day divided by hyphens, or else from a timestamp with an offset,
whose local date is taken as it is written. In the first form blanks may stand before each number,
a year without a sign has at most four digits, and a year with a sign may have any number of them.
-/

namespace ObjectBoundary.Date

/-- The digits at the front of a text, at most `most` of them and at least `least`, as a number, and
the rest. -/
def number? (least most : Nat) (cs : List Char) : Option (Nat × List Char) :=
  let digits := (cs.take most).takeWhile Char.isDigit
  if digits.length < least then none
  else
    match (digits.mapM Text.decimalValue?).map (Text.valueFrom 10 0) with
    | some n => some (n, cs.drop digits.length)
    | none => none

def after? (c : Char) : List Char → Option (List Char)
  | d :: cs => if d = c then some cs else none
  | [] => none

/-- A year: behind a sign any number of digits, without one at most four. -/
def year? : List Char → Option (Int × List Char)
  | '-' :: cs => do
    let (n, rest) ← number? 1 cs.length cs
    return (-(n : Int), rest)
  | '+' :: cs => do
    let (n, rest) ← number? 1 cs.length cs
    return ((n : Int), rest)
  | cs => do
    let (n, rest) ← number? 1 4 cs
    return ((n : Int), rest)

/-- Reads the form with hyphens; nothing may follow it. -/
def ofHyphenated? (cs : List Char) : Option Date := do
  let (year, cs) ← year? (cs.dropWhile Text.isBlank)
  let cs ← after? '-' cs
  let (month, cs) ← number? 1 2 (cs.dropWhile Text.isBlank)
  let cs ← after? '-' cs
  let (day, cs) ← number? 1 2 (cs.dropWhile Text.isBlank)
  if cs.isEmpty then make? year month day else none

/-- The part of a second, which may be absent. -/
def fraction? : List Char → Option (List Char)
  | '.' :: cs =>
    if (cs.takeWhile Char.isDigit).isEmpty then none else some (cs.dropWhile Char.isDigit)
  | cs => some cs

/-- The distance from UTC that ends a timestamp: `Z`, or a sign, hours up to 23 and minutes up to
59. -/
def isOffset : List Char → Bool
  | [c] => c == 'Z' || c == 'z'
  | sign :: cs =>
    (sign == '+' || sign == '-' || sign == '−') &&
      match number? 2 2 cs with
      | some (hours, rest) =>
        match after? ':' rest with
        | some rest =>
          match number? 2 2 rest with
          | some (minutes, []) => hours ≤ 23 && minutes ≤ 59
          | _ => false
        | none => false
      | none => false
  | [] => false

/-- Reads a timestamp; a minute may have a sixty-first second. -/
def ofTimestamp? (cs : List Char) : Option Date := do
  let (year, cs) ← number? 4 4 cs
  let cs ← after? '-' cs
  let (month, cs) ← number? 2 2 cs
  let cs ← after? '-' cs
  let (day, cs) ← number? 2 2 cs
  let cs ←
    match cs with
    | c :: rest => if c = 'T' ∨ c = 't' ∨ c = ' ' then some rest else none
    | [] => none
  let (hour, cs) ← number? 2 2 cs
  let cs ← after? ':' cs
  let (minute, cs) ← number? 2 2 cs
  let cs ← after? ':' cs
  let (second, cs) ← number? 2 2 cs
  let cs ← fraction? cs
  if hour ≤ 23 ∧ minute ≤ 59 ∧ second ≤ 60 ∧ isOffset cs then make? year month day else none

/-- The date that a text gives, in either form. -/
def parse? (s : String) : Option Date :=
  (ofHyphenated? s.toList).or (ofTimestamp? s.toList)

/-- Whether the date that a text gives lies strictly before a day. A text that gives no date is
never past. -/
def isPast (text : String) (today : Date) : Bool :=
  match parse? text with
  | some date => date.before today
  | none => false

end ObjectBoundary.Date
