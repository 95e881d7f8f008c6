/-!
# Patterns

The regular expressions to which a directive holds the value of a field: their parts, the sets of
characters in them, the modes that decide which parts can be matched, and the height of a pattern,
which is bounded.
-/

namespace ObjectBoundary

inductive CharSet where
  | empty
  | char (c : Char)
  | range (first last : Char)
  /-- A class with a name, such as the digits, or the characters outside it. -/
  | named (name : String) (negated : Bool)
  /-- A set in brackets, or the characters outside it. -/
  | bracket (negated : Bool) (content : CharSet)
  | union (members : List CharSet)
  /-- What two sets have in common, or what only one of them has. -/
  | operation (left right : CharSet)
  deriving Inhabited

inductive Pattern where
  | empty
  | char (c : Char)
  | anyChar
  /-- The beginning or the end of a text or a line. -/
  | edge
  /-- A place where a word begins, ends, or does neither. -/
  | wordEdge
  | set (chars : CharSet)
  /-- A change of modes. -/
  | switch
  | group (content : Pattern)
  | repeated (content : Pattern)
  | sequence (parts : List Pattern)
  | choice (options : List Pattern)
  deriving Inhabited

namespace CharSet

/-- The union of some sets; a single one stands for itself. -/
def ofMembers : List CharSet → CharSet
  | [] => .empty
  | [only] => only
  | members => .union members

mutual

/-- How many bracketed sets, unions and operations are nested. -/
def height : CharSet → Nat
  | .bracket _ content => content.height + 1
  | .union members => greatestHeight members + 1
  | .operation left right => max left.height right.height + 1
  | _ => 0

def greatestHeight : List CharSet → Nat
  | [] => 0
  | first :: rest => max first.height (greatestHeight rest)

end

end CharSet

namespace Pattern

/-- Some parts one after another; a single one stands for itself. -/
def ofParts : List Pattern → Pattern
  | [] => .empty
  | [only] => only
  | parts => .sequence parts

def ofOptions : List Pattern → Pattern
  | [] => .empty
  | [only] => only
  | options => .choice options

mutual

/-- How many groups, repetitions, sequences, choices and sets are nested. -/
def height : Pattern → Nat
  | .set chars => chars.height
  | .group content | .repeated content => content.height + 1
  | .sequence parts | .choice parts => greatestHeight parts + 1
  | _ => 0

def greatestHeight : List Pattern → Nat
  | [] => 0
  | first :: rest => max first.height (greatestHeight rest)

end

/-- The greatest height of a pattern that is accepted. -/
def heightLimit : Nat := 250

/-- The modes that a pattern can change for the rest of a group. -/
structure Mode where
  ignoreCase : Bool := false
  /-- Whether the pattern speaks of characters, rather than of bytes. -/
  unicode : Bool := true
  /-- Whether blanks and comments between the parts are passed over. -/
  verbose : Bool := false
  deriving DecidableEq, Repr, Inhabited

namespace Mode

/-- The letters of the modes. Only three of them decide what a pattern may hold. -/
def letters : List Char := ['i', 'm', 's', 'U', 'u', 'R', 'x']

def turn (mode : Mode) (letter : Char) (on : Bool) : Mode :=
  if letter = 'i' then { mode with ignoreCase := on }
  else if letter = 'u' then { mode with unicode := on }
  else if letter = 'x' then { mode with verbose := on }
  else mode

/-- Characters can be matched only in their own case. A byte, here one that was written by its two
digits, has to be a character of its own. -/
def allowsChar (mode : Mode) (c : Char) (isByte : Bool) : Bool :=
  if mode.unicode then !mode.ignoreCase else !(isByte && 0x80 ≤ c.toNat)

/-- A set of bytes holds ASCII characters only. -/
def allowsMember (mode : Mode) (c : Char) : Bool :=
  if mode.unicode then !mode.ignoreCase else c.toNat < 0x80

/-- The named classes are sets of ASCII characters; in bytes they have no outside. -/
def allowsNamed (mode : Mode) (negated : Bool) : Bool :=
  if mode.unicode then !mode.ignoreCase else !negated

/-- Digits, blanks and the characters of words are known among bytes only. -/
def allowsEscaped (mode : Mode) (negated : Bool) : Bool := !mode.unicode && !negated

/-- A set of bytes has no outside. -/
def allowsBracket (mode : Mode) (negated : Bool) : Bool := mode.unicode || !negated

end Mode

end Pattern

end ObjectBoundary
