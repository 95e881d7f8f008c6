import ObjectBoundary.Log.Pattern.Basic
import ObjectBoundary.Text.Alphanumeric
import ObjectBoundary.Text.Blank
import ObjectBoundary.Text.Numeral
import ObjectBoundary.Text.Piece

/-!
# Reading patterns

The spelling of patterns. A reader gives what it has read together with the rest of the text, and
refuses what cannot be matched in the mode at hand. Counted repetitions are not among the patterns
here, because a directive cannot hold their closing brace.
-/

namespace ObjectBoundary.Pattern

/-- Passes over blanks, and over comments from `#` to the end of the line. -/
def skipBlanks (inComment : Bool) : List Char → List Char
  | [] => []
  | c :: cs =>
    if inComment then skipBlanks (c != '\n') cs
    else if c = '#' then skipBlanks true cs
    else if Text.isBlank c then skipBlanks false cs
    else c :: cs

/-- Passes over what stands between two parts. -/
def Mode.skip (mode : Mode) (cs : List Char) : List Char :=
  if mode.verbose then skipBlanks false cs else cs

/-- The character to which a hyphen in a set looks ahead. Where blanks are passed over, so is the
first `#` among them, but no more of its comment. -/
def Mode.next? (mode : Mode) (cs : List Char) : Option Char :=
  let rest :=
    match cs.dropWhile Text.isBlank with
    | '#' :: comment => comment.dropWhile Text.isBlank
    | other => other
  if mode.verbose then rest.head?.or cs.head? else cs.head?

/-- What a character or an escape stands for. -/
inductive Atom where
  | char (c : Char) (isByte : Bool)
  | escaped (letter : Char) (negated : Bool)
  | edge
  | wordEdge
  deriving DecidableEq, Repr, Inhabited

def hexDigits? (mode : Mode) : Nat → Nat → List Char → Option (Nat × List Char)
  | 0, value, cs => some (value, cs)
  | _ + 1, _, [] => none
  | count + 1, value, c :: cs => do
    let digit ← Text.hexValue? c
    hexDigits? mode count (value * 16 + digit) (mode.skip cs)

/-- Reads a character by its code point in a number of digits. -/
def codePoint? (mode : Mode) (count : Nat) (isByte : Bool) (cs : List Char) :
    Option (Atom × List Char) := do
  let (value, rest) ← hexDigits? mode count 0 (mode.skip cs)
  if value.isValidChar then some (.char (Char.ofNat value) isByte, rest) else none

/-- The control characters that have a letter. -/
def controls : List (Char × Char) :=
  [('a', '\x07'), ('f', '\x0c'), ('t', '\t'), ('n', '\n'), ('r', '\r'), ('v', '\x0b')]

/-- Whether a character stands for itself behind a backslash. -/
def isPlainEscape (c : Char) : Bool :=
  c.toNat < 0x80 && !c.isAlphanum && c != '<' && c != '>'

/-- Reads an escape behind its backslash. -/
def escape? (mode : Mode) : List Char → Option (Atom × List Char)
  | [] => none
  | 'x' :: cs => codePoint? mode 2 true cs
  | 'u' :: cs => codePoint? mode 4 false cs
  | 'U' :: cs => codePoint? mode 8 false cs
  | c :: cs =>
    if c = 'd' ∨ c = 's' ∨ c = 'w' then some (.escaped c false, cs)
    else if c = 'D' ∨ c = 'S' ∨ c = 'W' then some (.escaped c true, cs)
    else if c = 'A' ∨ c = 'z' then some (.edge, cs)
    else if c = 'b' ∨ c = 'B' ∨ c = '<' ∨ c = '>' then some (.wordEdge, cs)
    else if isPlainEscape c then some (.char c false, cs)
    else (controls.lookup c).map fun control => (.char control false, cs)

def Atom.toPattern? (mode : Mode) : Atom → Option Pattern
  | .char c isByte => if mode.allowsChar c isByte then some (.char c) else none
  | .escaped letter negated =>
    if mode.allowsEscaped negated then some (.set (.named letter.toString negated)) else none
  | .edge => some .edge
  | .wordEdge => if mode.unicode then none else some .wordEdge

def Atom.toMember? (mode : Mode) : Atom → Option CharSet
  | .char c _ => if mode.allowsMember c then some (.char c) else none
  | .escaped letter negated =>
    if mode.allowsEscaped negated then some (.named letter.toString negated) else none
  | .edge | .wordEdge => none

def classNames : List String :=
  ["alnum", "alpha", "ascii", "blank", "cntrl", "digit", "graph", "lower", "print", "punct",
    "space", "upper", "word", "xdigit"]

/-- Reads a named class behind its bracket: whether it is negated, and its name. -/
def className? : List Char → Option (Bool × String × List Char)
  | ':' :: cs =>
    let negated := cs.head? = some '^'
    let body := if negated then cs.drop 1 else cs
    let name := String.ofList (body.takeWhile (· != ':'))
    match body.dropWhile (· != ':') with
    | ':' :: ']' :: rest => if name ∈ classNames then some (negated, name, rest) else none
    | _ => none
  | _ => none

/-- Reads one character or escape inside a set. -/
def setAtom? (mode : Mode) : List Char → Option (Atom × List Char)
  | [] => none
  | '\\' :: cs => escape? mode cs
  | c :: cs => some (.char c false, cs)

/-- Reads a member of a set: an atom, or two characters around a hyphen. A hyphen before the end of
the set or before another hyphen joins nothing. -/
def setMember? (mode : Mode) (cs : List Char) : Option (CharSet × List Char) := do
  let (first, rest) ← setAtom? mode cs
  match mode.skip rest with
  | '-' :: behind =>
    if mode.next? behind = some ']' ∨ mode.next? behind = some '-' then
      return (← first.toMember? mode, '-' :: behind)
    else
      match first, ← setAtom? mode (mode.skip behind) with
      | .char low _, (.char high _, rest) =>
        if low ≤ high ∧ mode.allowsMember low ∧ mode.allowsMember high then
          some (.range low high, rest)
        else none
      | _, _ => none
  | rest => return (← first.toMember? mode, rest)

/-- Closes an operand of a set: joins its members, given last first, to the operands before it. -/
def closeOperand (left : Option CharSet) (members : List CharSet) : CharSet :=
  let operand := CharSet.ofMembers members.reverse
  match left with
  | some left => .operation left operand
  | none => operand

/-- Whether a bracketed set begins with a negation, and what follows. -/
def negation (mode : Mode) (cs : List Char) : Bool × List Char :=
  match mode.skip cs with
  | '^' :: rest => (true, rest)
  | rest => (false, rest)

/-- Reads a set up to its closing bracket. Hyphens at its beginning, and a closing bracket as its
first character, are members. -/
def setContent? (mode : Mode) : Nat → (isStart : Bool) → (left : Option CharSet) →
    (members : List CharSet) → List Char → Option (CharSet × List Char)
  | 0, _, _, _, _ => none
  | fuel + 1, isStart, left, members, cs =>
    let addChar (isStart : Bool) (c : Char) (rest : List Char) : Option (CharSet × List Char) :=
      if mode.allowsMember c then setContent? mode fuel isStart left (.char c :: members) rest
      else none
    match mode.skip cs, isStart with
    | [], _ => none
    | '-' :: rest, true => addChar true '-' rest
    | ']' :: rest, true =>
      if members.isEmpty then addChar false ']' rest
      else some (closeOperand left members, rest)
    | ']' :: rest, false => some (closeOperand left members, rest)
    | '&' :: '&' :: rest, _ | '-' :: '-' :: rest, _ | '~' :: '~' :: rest, _ =>
      setContent? mode fuel false (some (closeOperand left members)) [] rest
    | '[' :: rest, _ =>
      match className? rest with
      | some (negated, name, rest) =>
        if mode.allowsNamed negated then
          setContent? mode fuel false left (.named name negated :: members) rest
        else none
      | none => do
        let (negated, rest) := negation mode rest
        let (content, rest) ← setContent? mode fuel true none [] rest
        if mode.allowsBracket negated then
          setContent? mode fuel false left (.bracket negated content :: members) rest
        else none
    | rest, _ => do
      let (member, rest) ← setMember? mode rest
      setContent? mode fuel false left (member :: members) rest

def set? (mode : Mode) (fuel : Nat) (cs : List Char) : Option (CharSet × List Char) := do
  let (negated, rest) := negation mode cs
  let (content, rest) ← setContent? mode fuel true none [] rest
  if mode.allowsBracket negated then some (.bracket negated content, rest) else none

/-- What stands between an opening parenthesis and the parts of its group. -/
inductive Opening where
  /-- A group, with its modes and a name that it may have. -/
  | group (mode : Mode) (name : Option String)
  /-- No group, but modes for the rest of the group around it. -/
  | switch (mode : Mode)
  deriving DecidableEq, Repr, Inhabited

/-- Reads the letters of modes up to a colon or a parenthesis, where `seen` are the letters before,
last first. No letter stands twice, and those behind a hyphen are turned off. A hyphen has a letter
behind it, and a mere change of modes has at least one. -/
def switches? (mode : Mode) (seen : List Char) : List Char → Option (Opening × List Char)
  | [] => none
  | c :: cs =>
    if c = ')' ∨ c = ':' then
      if seen.head? = some '-' then none
      else if c = ':' then some (.group mode none, cs)
      else if seen.isEmpty then none
      else some (.switch mode, cs)
    else if seen.contains c then none
    else if c = '-' ∨ c ∈ Mode.letters then
      switches? (mode.turn c (!seen.contains '-')) (c :: seen) cs
    else none

/-- The names of groups begin with a letter or an underscore. -/
def isGroupName : List Char → Bool
  | [] => false
  | c :: cs =>
    (c == '_' || Text.isAlphabetic c) &&
      cs.all fun c => "_.[]".toList.contains c || Text.isAlphanumeric c

def groupName? (mode : Mode) (cs : List Char) : Option (Opening × List Char) :=
  let name := cs.takeWhile (· != '>')
  match cs.dropWhile (· != '>') with
  | _ :: rest =>
    if isGroupName name then some (.group mode (some (String.ofList name)), rest) else none
  | [] => none

/-- Reads what follows an opening parenthesis. There are no groups that only look around. -/
def opening? (mode : Mode) (cs : List Char) : Option (Opening × List Char) :=
  match cs with
  | '?' :: 'P' :: '<' :: rest => groupName? mode rest
  | '?' :: '<' :: rest => groupName? mode rest
  | '?' :: rest => switches? mode [] rest
  | _ => some (.group mode none, cs)

/-- Closes a pattern: joins its parts, given last first, to the options before them. -/
def closeOptions (options parts : List Pattern) : Pattern :=
  ofOptions (ofParts parts.reverse :: options).reverse

/-- Reads a set, or one character or escape outside of sets. -/
def part? (mode : Mode) (fuel : Nat) : List Char → Option (Pattern × List Char)
  | [] => none
  | '[' :: cs => do
    let (chars, rest) ← set? mode fuel cs
    return (.set chars, rest)
  | '\\' :: cs => do
    let (atom, rest) ← escape? mode cs
    return (← atom.toPattern? mode, rest)
  | c :: cs =>
    if c = '.' then if mode.unicode then some (.anyChar, cs) else none
    else if c = '^' ∨ c = '$' then some (.edge, cs)
    else if c = '\x7b' then none
    else ((Atom.char c false).toPattern? mode).map fun part => (part, cs)

/-- Reads a pattern up to the end of the text, or in a group up to its closing parenthesis. The
names of groups are unique, so the names that were met are handed on. -/
def content? : Nat → (inGroup : Bool) → Mode → (names : List String) →
    (options parts : List Pattern) → List Char → Option (Pattern × List String × List Char)
  | 0, _, _, _, _, _, _ => none
  | fuel + 1, inGroup, mode, names, options, parts, cs =>
    match mode.skip cs with
    | [] => if inGroup then none else some (closeOptions options parts, names, [])
    | ')' :: rest => if inGroup then some (closeOptions options parts, names, rest) else none
    | '|' :: rest =>
      content? fuel inGroup mode names (ofParts parts.reverse :: options) [] rest
    | '(' :: rest => do
      match ← opening? mode (mode.skip rest) with
      | (.switch mode, rest) =>
        content? fuel inGroup mode names options (.switch :: parts) rest
      | (.group inner name, rest) =>
        if name.any names.contains then none
        else
          let (content, names, rest) ←
            content? fuel true inner (name.toList ++ names) [] [] rest
          content? fuel inGroup mode names options (.group content :: parts) rest
    | c :: rest =>
      if c = '*' ∨ c = '+' ∨ c = '?' then
        let rest := if rest.head? = some '?' then rest.drop 1 else rest
        match parts with
        | [] | .switch :: _ => none
        | part :: parts =>
          content? fuel inGroup mode names options (.repeated part :: parts) rest
      else do
        let (part, rest) ← part? mode fuel (c :: rest)
        content? fuel inGroup mode names options (part :: parts) rest

def parse? (cs : List Char) : Option Pattern :=
  (content? (cs.length + 1) false {} [] [] [] cs).map (·.1)

/-- Whether a text is a pattern within the limit of height. -/
def isValid (cs : List Char) : Bool :=
  match parse? cs with
  | some pattern => pattern.height ≤ heightLimit
  | none => false

end ObjectBoundary.Pattern
