import ObjectBoundary.Toml.Scalar

/-!
# Reading TOML

A document is a sequence of lines: blank lines and comments, headers, and keys with their values.
Arrays may run over several lines, tables written as one value may not. Values and keys are nested
to a limited depth.
-/

namespace ObjectBoundary.Toml

/-- The greatest number of values inside each other, and of names in a dotted key. -/
def depthLimit : Nat := 79

def isBlankChar (c : Char) : Bool := c == ' ' || c == '\t'

def skipBlanks (cs : List Char) : List Char := cs.dropWhile isBlankChar

/-- What follows the end of a line, before which blanks and a comment may stand. -/
def afterLine? (cs : List Char) : Option (List Char) :=
  let rest :=
    match skipBlanks cs with
    | '#' :: comment => comment.dropWhile isPlain
    | rest => rest
  match rest with
  | [] => some []
  | '\n' :: rest => some rest
  | '\r' :: '\n' :: rest => some rest
  | _ => none

/-- What follows blanks, line breaks and comments. -/
def skipLines (inComment : Bool) : List Char → Option (List Char)
  | '\r' :: '\n' :: rest => skipLines false rest
  | '\n' :: rest => skipLines false rest
  | c :: rest =>
    if inComment then if isPlain c then skipLines true rest else none
    else if isBlankChar c then skipLines false rest
    else if c = '#' then skipLines true rest
    else some (c :: rest)
  | [] => if inComment then none else some []

def isKeyChar (c : Char) : Bool := c.isAlphanum || c == '_' || c == '-'

def keyName? (cs : List Char) : Option (String × List Char) :=
  match cs with
  | '"' :: rest => (basic rest).map fun (name, rest) => (String.ofList name, rest)
  | '\x27' :: rest => (literal rest).map fun (name, rest) => (String.ofList name, rest)
  | cs =>
    let name := cs.takeWhile isKeyChar
    if name.isEmpty then none else some (String.ofList name, cs.dropWhile isKeyChar)

/-- The names of a key, at most `limit` of them, divided by dots. -/
def keyNames? (limit : Nat) (cs : List Char) : Option (List String × List Char) :=
  match limit with
  | 0 => none
  | limit + 1 => do
    let (name, rest) ← keyName? (skipBlanks cs)
    match skipBlanks rest with
    | '.' :: rest =>
      let (names, rest) ← keyNames? limit rest
      return (name :: names, rest)
    | rest => return ([name], rest)

/-- A key: the names before the last one, and that one. -/
def key? (cs : List Char) : Option ((List String × String) × List Char) := do
  let (names, rest) ← keyNames? depthLimit cs
  let last ← names.getLast?
  return ((names.dropLast, last), rest)

mutual

/-- A value, inside which there may be `depth` further levels. -/
def value? (fuel depth : Nat) (cs : List Char) : Option (Toml × List Char) :=
  match fuel with
  | 0 => none
  | fuel + 1 =>
    match cs, depth with
    | '[' :: rest, depth + 1 => do
      let (items, rest) ← items? fuel depth rest
      return (.array items, rest)
    | '\x7b' :: rest, depth + 1 =>
      match skipBlanks rest with
      | '\x7d' :: rest => some (.inline [], rest)
      | rest => do
        let (entries, rest) ← fields? fuel depth [] rest
        return (.inline entries, rest)
    | c :: rest, _ =>
      if c = '"' ∨ c = '\x27' then (string? (c :: rest)).map fun (s, rest) => (.text s, rest)
      else bare? (c :: rest)
    | [], _ => none

/-- The items of an array behind its opening bracket or behind a comma. -/
def items? (fuel depth : Nat) (cs : List Char) : Option (List Toml × List Char) :=
  match fuel with
  | 0 => none
  | fuel + 1 => do
    match ← skipLines false cs with
    | ']' :: rest => return ([], rest)
    | cs =>
      let (item, rest) ← value? fuel depth cs
      match ← skipLines false rest with
      | ',' :: rest =>
        let (items, rest) ← items? fuel depth rest
        return (item :: items, rest)
      | ']' :: rest => return ([item], rest)
      | _ => none

/-- The entries of a table that is written as one value, added to those before them. -/
def fields? (fuel depth : Nat) (entries : Entries) (cs : List Char) :
    Option (Entries × List Char) :=
  match fuel with
  | 0 => none
  | fuel + 1 => do
    match ← key? cs with
    | ((path, key), '=' :: rest) =>
      let (content, rest) ← value? fuel depth (skipBlanks rest)
      let entries ← define key content path entries
      match skipBlanks rest with
      | ',' :: rest => fields? fuel depth entries rest
      | '\x7d' :: rest => return (entries, rest)
      | _ => none
    | _ => none

end

/-- The document built so far and the path of the header under which lines stand. -/
structure Draft where
  root : Entries := []
  header : List String := []

def lines? (fuel : Nat) (draft : Draft) (cs : List Char) : Option Entries :=
  match fuel with
  | 0 => none
  | fuel + 1 =>
    match skipBlanks cs with
    | [] => some draft.root
    | '#' :: rest => do lines? fuel draft (← afterLine? ('#' :: rest))
    | '\n' :: rest => lines? fuel draft rest
    | '\r' :: rest => do lines? fuel draft (← afterLine? ('\r' :: rest))
    | '[' :: '[' :: rest => do
      match ← key? rest with
      | ((path, key), ']' :: ']' :: rest) =>
        let root ← under (openNext key) path draft.root
        lines? fuel ⟨root, path ++ [key]⟩ (← afterLine? rest)
      | _ => none
    | '[' :: rest => do
      match ← key? rest with
      | ((path, key), ']' :: rest) =>
        let root ← under (openTable key) path draft.root
        lines? fuel ⟨root, path ++ [key]⟩ (← afterLine? rest)
      | _ => none
    | cs => do
      match ← key? cs with
      | ((path, key), '=' :: rest) =>
        let (content, rest) ← value? (3 * rest.length + 3) depthLimit (skipBlanks rest)
        let root ← under (define key content path) draft.header draft.root
        lines? fuel { draft with root } (← afterLine? rest)
      | _ => none

/-- The entries of a document. A byte order mark at its front is passed over. -/
def parse? (s : String) : Option Entries :=
  let cs :=
    match s.toList with
    | '\ufeff' :: rest => rest
    | cs => cs
  lines? (cs.length + 1) {} cs

end ObjectBoundary.Toml
