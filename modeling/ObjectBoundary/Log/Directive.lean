import ObjectBoundary.Log.Level
import ObjectBoundary.Log.Pattern.Reader
import ObjectBoundary.Text.Alphanumeric
import ObjectBoundary.Text.Blank
import ObjectBoundary.Text.Piece

/-!
# Filter directives

A filter is a list of directives divided by commas. A directive names a target, a span with fields,
or both, and may end with a level. A field may have a value to be compared with. A directive is read
by a machine that looks at one character at a time.
-/

namespace ObjectBoundary.Directive

/-- Where in a directive the machine is. -/
inductive Place where
  | start
  | target
  | span
  /-- Inside a list of fields; holds the characters of the current one, the last one first. -/
  | field (read : List Char)
  /-- Behind a list of fields. -/
  | fieldsEnd
  /-- Behind a span. -/
  | spanEnd
  /-- Inside a level; holds its characters so far, the last one first. -/
  | level (read : List Char)
  deriving DecidableEq, Repr

/-- What a directive may say of its level: nothing, a number from 0 to 5, `off` or a name. -/
def isLevel (text : String) : Bool :=
  text.isEmpty || Level.asciiLowercase text == "off" || (Level.parse? text).isSome ||
    Text.unsigned? text.toList == some 0

/-- The value of a field is a number or a pattern. -/
def isValue (cs : List Char) : Bool := Text.isNumber cs || Pattern.isValid cs

/-- A field has a name and may have a value behind an equals sign; a second equals sign ends the
value. -/
def isField (cs : List Char) : Bool :=
  !cs.isEmpty &&
    match Text.splitAt '=' cs with
    | _ :: value :: _ => isValue value
    | _ => true

def step (place : Place) (c : Char) : Option Place :=
  match place with
  | .start =>
    if c = '[' then some .span
    else if c = '-' ∨ c = ':' ∨ c = '_' ∨ Text.isAlphanumeric c then some .target
    else none
  | .target =>
    if c = '=' then some (.level []) else if c = '[' then some .span else some .target
  | .span =>
    if c = ']' then some .spanEnd else if c = '\x7b' then some (.field []) else some .span
  | .field read =>
    if c = '\x7d' then if isField read.reverse then some .fieldsEnd else none
    else if c = ',' then if isField read.reverse then some (.field []) else none
    else some (.field (c :: read))
  | .fieldsEnd => if c = ']' then some .spanEnd else none
  | .spanEnd => if c = '=' then some (.level []) else none
  | .level read => some (.level (c :: read))

def isEnd : Place → Bool
  | .target | .spanEnd => true
  | .level read => isLevel (String.ofList read.reverse)
  | _ => false

/-- Whether a text is a directive. -/
def isValid (text : String) : Bool :=
  match text.toList.foldlM step .start with
  | some place => isEnd place
  | none => false

/-- The parts of a filter that are not blank, without the blanks around them. -/
def parts (filter : String) : List String :=
  ((Text.splitAt ',' filter.toList).map fun part => String.ofList (Text.trimChars part)).filter
    (! ·.isEmpty)

def invalid (filter : String) : List String := (parts filter).filter (! isValid ·)

end ObjectBoundary.Directive
